import SettingStore.Plugin.Resolution

set_option autoImplicit false

/-! # Repeated names on the stack

A plugin that is listed twice gives two arrows, and the walk along the arrows then puts a name
on the stack twice, with nothing in between. `Repeats` compares two lists that differ in such
repeats alone. The walk takes no notice of them: it leaves the same nodes in the same order, or
ends at the same node (`walkAll_of_repeats`).
-/

namespace SettingStore.Catalog

variable {l l' m m' : List String} {x : String}

/-! ## Repeats -/

/-- The first list is the second one with some names repeated, each right behind itself. -/
inductive Repeats : List String → List String → Prop where
  | nil : Repeats [] []
  | keep (x : String) {l l' : List String} (h : Repeats l l') : Repeats (x :: l) (x :: l')
  | again (x : String) {l l' : List String} (h : Repeats (x :: l) l') : Repeats (x :: x :: l) l'

namespace Repeats

theorem refl (l : List String) : Repeats l l := by
  induction l with
  | nil => exact .nil
  | cons x l ih => exact .keep x ih

theorem mem_iff {y : String} (h : Repeats l l') : y ∈ l ↔ y ∈ l' := by
  induction h with
  | nil => exact Iff.rfl
  | keep x _ ih => simp only [List.mem_cons, ih]
  | again x _ ih =>
      rw [← ih]
      simp

theorem append (h : Repeats l l') (h' : Repeats m m') : Repeats (l ++ m) (l' ++ m') := by
  induction h with
  | nil => exact h'
  | keep x _ ih => exact .keep x ih
  | again x _ ih => exact .again x ih

theorem filter (p : String → Bool) (h : Repeats l l') : Repeats (l.filter p) (l'.filter p) := by
  induction h with
  | nil => exact .nil
  | keep x _ ih =>
      cases hx : p x with
      | true => simpa [hx] using Repeats.keep x ih
      | false => simpa [hx] using ih
  | again x _ ih =>
      cases hx : p x with
      | true =>
          simp only [List.filter_cons, hx, if_true] at ih ⊢
          exact .again x ih
      | false => simpa [hx] using ih

/-- A name may be put in front as often as one likes, but not zero times. -/
theorem append_of_forall_eq {block : List String} (hne : block ≠ []) (hx : ∀ y ∈ block, y = x)
    (h : Repeats l l') : Repeats (block ++ l) (x :: l') := by
  induction block with
  | nil => exact absurd rfl hne
  | cons y block ih =>
      obtain rfl : y = x := hx y List.mem_cons_self
      cases block with
      | nil => exact .keep y h
      | cons z block =>
          have hz : z = y := hx z (List.mem_cons_of_mem _ List.mem_cons_self)
          have hrest := ih (List.cons_ne_nil _ _) fun w hw => hx w (List.mem_cons_of_mem _ hw)
          rw [hz] at hrest ⊢
          exact .again y hrest

/-- Both lists start with the same name, which is repeated in the first one or is not. -/
theorem cons_cases (h : Repeats (x :: l) m) :
    ∃ rest, m = x :: rest ∧ (Repeats l rest ∨ ∃ others, l = x :: others ∧ Repeats l m) := by
  generalize hl : x :: l = whole at h
  induction h generalizing l with
  | nil => cases hl
  | keep y h _ =>
      cases hl
      exact ⟨_, rfl, Or.inl h⟩
  | again y h ih =>
      cases hl
      obtain ⟨rest, rfl, -⟩ := ih rfl
      exact ⟨rest, rfl, Or.inr ⟨_, rfl, h⟩⟩

end Repeats

/-! ## The walk along the arrows -/

/-- A name that was seen before is taken off the stack. -/
theorem walk_cons_of_seen {next : String → List String} {unseen rest left : List String}
    {name : String} (seen : name ∉ unseen) :
    walk next unseen (name :: rest) left
      = walk next unseen rest (if name ∈ left then left else name :: left) := by
  rw [walk, if_neg seen]

section Walking

variable {next next' : String → List String} {unseen stack stack' left : List String}
  (same : ∀ x, Repeats (next x).reverse (next' x).reverse)
include same

theorem mem_next_of_repeats {y : String} : y ∈ next x ↔ y ∈ next' x := by
  rw [← List.mem_reverse, (same x).mem_iff, List.mem_reverse]

/-- Repeats change nothing about a walk: when a name is on top again right after it was taken
off, it was left already. -/
theorem walk_of_repeats (h : Repeats stack stack') :
    walk next unseen stack left = walk next' unseen stack' left := by
  fun_induction walk next unseen stack left generalizing stack' with
  | case1 unseen left =>
      cases h
      rw [walk]
  | case2 unseen left name rest hname hself =>
      obtain ⟨rest', rfl, -⟩ := h.cons_cases
      rw [walk, if_pos hname, if_pos ((mem_next_of_repeats same).1 hself)]
  | case3 unseen left name rest hname hplain ih =>
      obtain ⟨rest', rfl, -⟩ := h.cons_cases
      rw [walk, if_pos hname, if_neg fun hself => hplain ((mem_next_of_repeats same).2 hself)]
      refine ih (Repeats.append ?_ h)
      rw [← List.filter_reverse, ← List.filter_reverse]
      exact (same name).filter _
  | case4 unseen left name rest hname ih =>
      obtain ⟨rest', rfl, hrest | ⟨others, rfl, hagain⟩⟩ := h.cons_cases
      · rw [walk_cons_of_seen hname]
        exact ih hrest
      · have hleft : name ∈ (if name ∈ left then left else name :: left) := by
          by_cases hmem : name ∈ left <;> simp [hmem]
        calc walk next unseen (name :: others) (if name ∈ left then left else name :: left)
            = walk next' unseen (name :: rest') (if name ∈ left then left else name :: left) :=
              ih hagain
          _ = walk next' unseen rest' (if name ∈ left then left else name :: left) := by
              rw [walk_cons_of_seen hname, if_pos hleft]
          _ = walk next' unseen (name :: rest') left := (walk_cons_of_seen hname).symm

/-- Nor about the walks from all names. -/
theorem walkAll_of_repeats (names : List String) :
    walkAll next unseen left names = walkAll next' unseen left names := by
  induction names generalizing unseen left with
  | nil => rfl
  | cons name rest ih =>
      rw [walkAll, walkAll, walk_of_repeats same (Repeats.refl [name])]
      by_cases hname : name ∈ unseen
      · rw [if_pos hname, if_pos hname]
        split
        · rfl
        · exact ih
      · rw [if_neg hname, if_neg hname]
        exact ih

end Walking

end SettingStore.Catalog
