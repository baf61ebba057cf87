import Mathlib.Logic.Relation
import SettingStore.Plugin.Resolution

set_option autoImplicit false

/-! # The two walks

The first walk leaves every node exactly once. If `a` is next to `b` and is left after it, then
the walk was still under way from `a` when `b` was left, so `b` was reached from `a` and the two
are on a cycle (`finished_of_walkAll`). A name with which it ends in an error is next to itself
(`Walking.self_of_walkAll`).

The second walk looks at the nodes in order and finds the first one next to which there is a
name that has not come yet (`arrival?_eq_none`, `arrival?_eq_some`).
-/

namespace SettingStore.Catalog

variable {next : String → List String} {nodes unseen stack left rest : List String}
  {name other : String}

/-- One or more steps from a name to the names next to it. -/
abbrev Leads (next : String → List String) : String → String → Prop :=
  Relation.TransGen fun a b => b ∈ next a

/-! ## The state of the first walk -/

/-- What stands on the stack above the topmost occurrence of a name. -/
def above (name : String) (stack : List String) : List String := stack.takeWhile (· != name)

/-- The walk has seen the node and not left it yet. -/
structure Entered (nodes unseen left : List String) (name : String) : Prop where
  node : name ∈ nodes
  seen : name ∉ unseen
  stays : name ∉ left

/-- What holds all along the first walk. A node that was entered stands on the stack; above it
there are only names that it leads to, among them all the names next to it that are unseen. When
a node is left, all names next to it were seen, and those of them that were not left before lead
to it. -/
structure Walking (next : String → List String) (nodes unseen stack left : List String) :
    Prop where
  unseen_nodup : unseen.Nodup
  left_nodup : left.Nodup
  unseen_nodes : ∀ x ∈ unseen, x ∈ nodes
  left_nodes : ∀ x ∈ left, x ∈ nodes
  stack_nodes : ∀ x ∈ stack, x ∈ nodes
  apart : ∀ x ∈ left, x ∉ unseen
  plain : ∀ x ∈ nodes, x ∉ unseen → x ∉ next x
  on_stack : ∀ a, Entered nodes unseen left a → a ∈ stack
  leads : ∀ a, Entered nodes unseen left a → ∀ x ∈ above a stack, Leads next a x
  covered : ∀ a, Entered nodes unseen left a → ∀ x ∈ next a, x ∈ unseen → x ∈ above a stack
  ahead : ∀ b ∈ left, ∀ x ∈ next b, x ∉ unseen
  back : ∀ b ∈ left, ∀ a, Entered nodes unseen left a → a ∈ next b → Leads next a b
  ordered : left.Pairwise fun a b => a ∈ next b → Leads next a b

theorem walking_start (next : String → List String) (nodup : nodes.Nodup) :
    Walking next nodes nodes [] [] where
  unseen_nodup := nodup
  left_nodup := List.nodup_nil
  unseen_nodes _ hx := hx
  left_nodes _ hx := absurd hx List.not_mem_nil
  stack_nodes _ hx := absurd hx List.not_mem_nil
  apart _ hx := absurd hx List.not_mem_nil
  plain _ hx hseen := absurd hx hseen
  on_stack _ entered := absurd entered.node entered.seen
  leads _ entered := absurd entered.node entered.seen
  covered _ entered := absurd entered.node entered.seen
  ahead _ hb := absurd hb List.not_mem_nil
  back _ hb := absurd hb List.not_mem_nil
  ordered := List.Pairwise.nil

theorem above_cons_self (name : String) (stack : List String) :
    above name (name :: stack) = [] := by
  simp [above]

theorem above_cons_of_ne (h : other ≠ name) (stack : List String) :
    above name (other :: stack) = other :: above name stack := by
  simp [above, h]

/-- Other names may be put on top. -/
theorem above_append {names : List String} (h : name ∉ names) (stack : List String) :
    above name (names ++ stack) = names ++ above name stack := by
  rw [above, List.takeWhile_append_of_pos]
  · rfl
  · intro x hx
    rw [bne_iff_ne]
    rintro rfl
    exact h hx

namespace Walking

/-! ### One step -/

/-- The walk starts from an unseen node. -/
theorem start (h : Walking next nodes unseen [] left) (hname : name ∈ unseen) :
    Walking next nodes unseen [name] left := by
  -- Nothing is under way, since what was entered would be on the stack.
  have hnone : ∀ a, ¬ Entered nodes unseen left a := fun a entered =>
    List.not_mem_nil (h.on_stack a entered)
  refine { h with stack_nodes := ?_, on_stack := ?_, leads := ?_, covered := ?_ }
  · intro x hx
    rw [List.mem_singleton.1 hx]
    exact h.unseen_nodes name hname
  · exact fun a entered => absurd entered (hnone a)
  · exact fun a entered => absurd entered (hnone a)
  · exact fun a entered => absurd entered (hnone a)

/-- The name on top is seen for the first time, and the unseen names next to it are put on top
of it. -/
theorem enter (h : Walking next nodes unseen (name :: rest) left) (hname : name ∈ unseen)
    (plain : name ∉ next name) {added : List String}
    (hadded : ∀ x, x ∈ added ↔ x ∈ next name ∧ x ∈ unseen.erase name) :
    Walking next nodes (unseen.erase name) (added ++ name :: rest) left := by
  have hmem : ∀ x, x ∈ unseen.erase name ↔ x ≠ name ∧ x ∈ unseen := fun x =>
    h.unseen_nodup.mem_erase_iff
  have hleft : name ∉ left := fun hl => h.apart name hl hname
  have hnot : name ∉ added := fun hn => ((hmem name).1 ((hadded name).1 hn).2).1 rfl
  -- Besides the name, what is entered now was entered before.
  have hcases : ∀ a, Entered nodes (unseen.erase name) left a →
      a = name ∨ (a ≠ name ∧ Entered nodes unseen left a) := by
    intro a entered
    by_cases ha : a = name
    · exact Or.inl ha
    · exact Or.inr ⟨ha, entered.node, fun hu => entered.seen ((hmem a).2 ⟨ha, hu⟩), entered.stays⟩
  have habove : ∀ a, a ≠ name → Entered nodes unseen left a →
      above a (added ++ name :: rest) = added ++ above a (name :: rest) := by
    intro a ha entered
    refine above_append (fun hin => entered.seen ?_) _
    exact ((hmem a).1 ((hadded a).1 hin).2).2
  have hself : above name (added ++ name :: rest) = added := by
    rw [above_append hnot, above_cons_self, List.append_nil]
  constructor
  case unseen_nodup => exact h.unseen_nodup.erase name
  case left_nodup => exact h.left_nodup
  case unseen_nodes => exact fun x hx => h.unseen_nodes x ((hmem x).1 hx).2
  case left_nodes => exact h.left_nodes
  case stack_nodes =>
    intro x hx
    rcases List.mem_append.1 hx with hx | hx
    · exact h.unseen_nodes x ((hmem x).1 ((hadded x).1 hx).2).2
    · exact h.stack_nodes x hx
  case apart => exact fun x hx hu => h.apart x hx ((hmem x).1 hu).2
  case plain =>
    intro x hx hseen
    by_cases hxname : x = name
    · rw [hxname]
      exact plain
    · exact h.plain x hx fun hu => hseen ((hmem x).2 ⟨hxname, hu⟩)
  case on_stack =>
    intro a entered
    rcases hcases a entered with rfl | ⟨-, entered⟩
    · exact List.mem_append_right _ List.mem_cons_self
    · exact List.mem_append_right _ (h.on_stack a entered)
  case leads =>
    intro a entered x hx
    rcases hcases a entered with rfl | ⟨ha, entered⟩
    · rw [hself] at hx
      exact Relation.TransGen.single ((hadded x).1 hx).1
    · rw [habove a ha entered] at hx
      rcases List.mem_append.1 hx with hx | hx
      · -- The way goes on from the name, which stands above `a`.
        have hname : name ∈ above a (name :: rest) := by
          rw [above_cons_of_ne (Ne.symm ha)]
          exact List.mem_cons_self
        exact (h.leads a entered name hname).tail ((hadded x).1 hx).1
      · exact h.leads a entered x hx
  case covered =>
    intro a entered x hx hunseen
    rcases hcases a entered with rfl | ⟨ha, entered⟩
    · rw [hself]
      exact (hadded x).2 ⟨hx, hunseen⟩
    · rw [habove a ha entered]
      exact List.mem_append_right _ (h.covered a entered x hx ((hmem x).1 hunseen).2)
  case ahead => exact fun b hb x hx hu => h.ahead b hb x hx ((hmem x).1 hu).2
  case back =>
    intro b hb a entered ha
    rcases hcases a entered with rfl | ⟨-, entered⟩
    · exact absurd hname (h.ahead b hb a ha)
    · exact h.back b hb a entered ha
  case ordered => exact h.ordered

/-- The name on top was left before. -/
theorem drop (h : Walking next nodes unseen (name :: rest) left) (hname : name ∈ left) :
    Walking next nodes unseen rest left := by
  have hne : ∀ a, Entered nodes unseen left a → name ≠ a := by
    rintro a entered rfl
    exact entered.stays hname
  have habove : ∀ a, Entered nodes unseen left a →
      above a (name :: rest) = name :: above a rest := fun a entered =>
    above_cons_of_ne (hne a entered) rest
  refine { h with stack_nodes := ?_, on_stack := ?_, leads := ?_, covered := ?_ }
  · exact fun x hx => h.stack_nodes x (List.mem_cons_of_mem _ hx)
  · exact fun a entered => (List.mem_cons.1 (h.on_stack a entered)).resolve_left
      (Ne.symm (hne a entered))
  · intro a entered x hx
    refine h.leads a entered x ?_
    rw [habove a entered]
    exact List.mem_cons_of_mem _ hx
  · intro a entered x hx hunseen
    have hx := h.covered a entered x hx hunseen
    rw [habove a entered] at hx
    refine (List.mem_cons.1 hx).resolve_left ?_
    rintro rfl
    exact h.apart x hname hunseen

/-- The name on top was entered, and nothing stands above it any more. -/
theorem leave (h : Walking next nodes unseen (name :: rest) left) (hseen : name ∉ unseen)
    (hname : name ∉ left) : Walking next nodes unseen rest (name :: left) := by
  have hentered : Entered nodes unseen left name :=
    ⟨h.stack_nodes name List.mem_cons_self, hseen, hname⟩
  have hcases : ∀ a, Entered nodes unseen (name :: left) a →
      name ≠ a ∧ Entered nodes unseen left a := by
    intro a entered
    refine ⟨?_, entered.node, entered.seen, fun hl => entered.stays (List.mem_cons_of_mem _ hl)⟩
    rintro rfl
    exact entered.stays List.mem_cons_self
  have habove : ∀ a, name ≠ a → above a (name :: rest) = name :: above a rest := fun a hne =>
    above_cons_of_ne hne rest
  -- The walk is under way from every node that stays entered to the name.
  have hleads : ∀ a, Entered nodes unseen left a → name ≠ a → Leads next a name := by
    intro a entered hne
    refine h.leads a entered name ?_
    rw [habove a hne]
    exact List.mem_cons_self
  have hseen_next : ∀ x ∈ next name, x ∉ unseen := by
    intro x hx hunseen
    have hx := h.covered name hentered x hx hunseen
    rw [above_cons_self] at hx
    exact List.not_mem_nil hx
  constructor
  case unseen_nodup => exact h.unseen_nodup
  case left_nodup => exact List.nodup_cons.2 ⟨hname, h.left_nodup⟩
  case unseen_nodes => exact h.unseen_nodes
  case left_nodes =>
    intro x hx
    rcases List.mem_cons.1 hx with rfl | hx
    · exact hentered.node
    · exact h.left_nodes x hx
  case stack_nodes => exact fun x hx => h.stack_nodes x (List.mem_cons_of_mem _ hx)
  case apart =>
    intro x hx
    rcases List.mem_cons.1 hx with rfl | hx
    · exact hseen
    · exact h.apart x hx
  case plain => exact h.plain
  case on_stack =>
    intro a entered
    obtain ⟨hne, entered⟩ := hcases a entered
    exact (List.mem_cons.1 (h.on_stack a entered)).resolve_left (Ne.symm hne)
  case leads =>
    intro a entered x hx
    obtain ⟨hne, entered⟩ := hcases a entered
    refine h.leads a entered x ?_
    rw [habove a hne]
    exact List.mem_cons_of_mem _ hx
  case covered =>
    intro a entered x hx hunseen
    obtain ⟨hne, entered⟩ := hcases a entered
    have hx := h.covered a entered x hx hunseen
    rw [habove a hne] at hx
    refine (List.mem_cons.1 hx).resolve_left ?_
    rintro rfl
    exact hseen hunseen
  case ahead =>
    intro b hb
    rcases List.mem_cons.1 hb with rfl | hb
    · exact hseen_next
    · exact h.ahead b hb
  case back =>
    intro b hb a entered ha
    obtain ⟨hne, hbefore⟩ := hcases a entered
    rcases List.mem_cons.1 hb with rfl | hb
    · exact hleads a hbefore hne
    · exact h.back b hb a hbefore ha
  case ordered => exact List.pairwise_cons.2 ⟨fun b hb => h.back b hb name hentered, h.ordered⟩

end Walking

/-! ### Walking on -/

/-- Where the walk from the stack ends, all names on the stack were seen. -/
theorem Walking.walk (h : Walking next nodes unseen stack left) {unseen' left' : List String}
    (hwalk : walk next unseen stack left = .ok (unseen', left')) :
    Walking next nodes unseen' [] left' ∧ (∀ x ∈ unseen', x ∈ unseen) ∧
      ∀ x ∈ stack, x ∉ unseen' := by
  fun_induction Catalog.walk next unseen stack left with
  | case1 unseen left =>
      cases hwalk
      exact ⟨h, fun x hx => hx, fun x hx => absurd hx List.not_mem_nil⟩
  | case2 unseen left name rest hname hself => cases hwalk
  | case3 unseen left name rest hname hself ih =>
      have hadded : ∀ x, x ∈ ((next name).filter (unseen.erase name).contains).reverse ↔
          x ∈ next name ∧ x ∈ unseen.erase name := by
        intro x
        rw [List.mem_reverse, List.mem_filter, List.contains_iff_mem]
      obtain ⟨hend, hsub, hstack⟩ := ih (h.enter hname hself hadded) hwalk
      refine ⟨hend, fun x hx => List.mem_of_mem_erase (hsub x hx), fun x hx => ?_⟩
      exact hstack x (List.mem_append_right _ hx)
  | case4 unseen left name rest hname ih =>
      have hnext : Walking next nodes unseen rest (if name ∈ left then left else name :: left) := by
        split
        · rename_i hl
          exact h.drop hl
        · rename_i hl
          exact h.leave hname hl
      obtain ⟨hend, hsub, hstack⟩ := ih hnext hwalk
      refine ⟨hend, hsub, fun x hx => ?_⟩
      rcases List.mem_cons.1 hx with rfl | hx
      · exact fun hx => hname (hsub x hx)
      · exact hstack x hx

/-- A walk that does not end well has come to a name that is next to itself. -/
theorem self_of_walk (hwalk : walk next unseen stack left = .error name) :
    name ∈ unseen ∧ name ∈ next name := by
  fun_induction Catalog.walk next unseen stack left with
  | case1 unseen left => cases hwalk
  | case2 unseen left found rest hfound hself =>
      cases hwalk
      exact ⟨hfound, hself⟩
  | case3 unseen left found rest hfound hself ih =>
      obtain ⟨hname, hself⟩ := ih hwalk
      exact ⟨List.mem_of_mem_erase hname, hself⟩
  | case4 unseen left found rest hfound ih => exact ih hwalk

/-- Walks from all names see all of them. -/
theorem Walking.walkAll (h : Walking next nodes unseen [] left) {names sorted : List String}
    (hwalk : walkAll next unseen left names = .ok sorted) :
    ∃ unseen', Walking next nodes unseen' [] sorted ∧ (∀ x ∈ unseen', x ∈ unseen) ∧
      ∀ x ∈ names, x ∉ unseen' := by
  induction names generalizing unseen left with
  | nil =>
      cases hwalk
      exact ⟨unseen, h, fun x hx => hx, fun x hx => absurd hx List.not_mem_nil⟩
  | cons name rest ih =>
      rw [Catalog.walkAll] at hwalk
      split at hwalk
      · rename_i hname
        split at hwalk
        · cases hwalk
        · rename_i unseen₁ left₁ hfirst
          obtain ⟨hend, hsub, hstack⟩ := (h.start hname).walk hfirst
          obtain ⟨unseen', hlast, hsub', hrest⟩ := ih hend hwalk
          refine ⟨unseen', hlast, fun x hx => hsub x (hsub' x hx), fun x hx => ?_⟩
          rcases List.mem_cons.1 hx with rfl | hx
          · exact fun hx => hstack x List.mem_cons_self (hsub' x hx)
          · exact hrest x hx
      · rename_i hname
        obtain ⟨unseen', hlast, hsub', hrest⟩ := ih h hwalk
        refine ⟨unseen', hlast, hsub', fun x hx => ?_⟩
        rcases List.mem_cons.1 hx with rfl | hx
        · exact fun hx => hname (hsub' x hx)
        · exact hrest x hx

/-- If the walks do not end well, one of them has come to a name that is next to itself. -/
theorem Walking.self_of_walkAll (h : Walking next nodes unseen [] left) {names : List String}
    (hwalk : Catalog.walkAll next unseen left names = .error name) :
    name ∈ nodes ∧ name ∈ next name := by
  induction names generalizing unseen left with
  | nil => cases hwalk
  | cons first rest ih =>
      rw [Catalog.walkAll] at hwalk
      split at hwalk
      · rename_i hfirst
        split at hwalk
        · rename_i found herror
          cases hwalk
          obtain ⟨hunseen, hself⟩ := self_of_walk herror
          exact ⟨h.unseen_nodes _ hunseen, hself⟩
        · rename_i unseen₁ left₁ hok
          exact ih ((h.start hfirst).walk hok).1 hwalk
      · exact ih h hwalk

/-! ### Walking from all nodes -/

/-- The nodes are left once each. No node is next to itself, and one that is left later and is
next to one that is left earlier leads to it. -/
structure Finished (next : String → List String) (nodes sorted : List String) : Prop where
  perm : sorted.Perm nodes
  plain : ∀ x ∈ nodes, x ∉ next x
  ordered : sorted.Pairwise fun a b => a ∈ next b → Leads next a b

theorem finished_of_walkAll (nodup : nodes.Nodup) {sorted : List String}
    (hwalk : walkAll next nodes [] nodes = .ok sorted) : Finished next nodes sorted := by
  obtain ⟨unseen, h, -, hseen⟩ := (walking_start next nodup).walkAll hwalk
  refine ⟨?_, fun x hx => h.plain x hx (hseen x hx), h.ordered⟩
  refine (List.perm_ext_iff_of_nodup h.left_nodup nodup).2 fun x => ⟨h.left_nodes x, fun hx => ?_⟩
  -- A node that was not left would be on the stack, which is empty.
  refine Decidable.byContradiction fun hleft => ?_
  exact List.not_mem_nil (h.on_stack x ⟨hx, hseen x hx, hleft⟩)

/-! ## The second walk -/

variable {seen names : List String}

/-- Nothing is visited if everything on the stack was seen. -/
theorem visit?_eq_none_iff : visit? next seen stack = none ↔ ∀ x ∈ stack, x ∈ seen := by
  induction stack with
  | nil => simp [visit?]
  | cons name rest ih =>
      rw [visit?, List.forall_mem_cons]
      by_cases hname : name ∈ seen
      · rw [if_pos hname, ih]
        simp [hname]
      · rw [if_neg hname]
        simp [hname]

/-- What is visited stands on the stack and was not seen before. -/
theorem mem_of_visit? {seen' stack' : List String}
    (h : visit? next seen stack = some (name, seen', stack')) : name ∈ stack ∧ name ∉ seen := by
  induction stack with
  | nil => cases h
  | cons first rest ih =>
      rw [visit?] at h
      split at h
      · obtain ⟨hmem, hnot⟩ := ih h
        exact ⟨List.mem_cons_of_mem _ hmem, hnot⟩
      · rename_i hfirst
        cases h
        exact ⟨List.mem_cons_self, hfirst⟩

/-- The walk from a name arrives at a name next to it that was not seen, and if there is none
the next walk begins. -/
theorem arrival?_cons (next : String → List String) (names : List String) (hname : name ∉ seen) :
    (∃ other ∈ next name, other ∉ name :: seen ∧
        arrival? next seen (name :: names) = some other) ∨
      ((∀ other ∈ next name, other ∈ name :: seen) ∧
        arrival? next seen (name :: names) = arrival? next (name :: seen) names) := by
  have hadded : ∀ x, x ∈ ((next name).filter (!(name :: seen).contains ·)).reverse ++ [] ↔
      x ∈ next name ∧ x ∉ name :: seen := by
    intro x
    rw [List.append_nil, List.mem_reverse, List.mem_filter, Bool.not_eq_true',
      ← Bool.not_eq_true, List.contains_iff_mem]
  rw [arrival?, visit?, if_neg hname]
  dsimp only
  cases hvisit : visit? next (name :: seen)
      (((next name).filter (!(name :: seen).contains ·)).reverse ++ []) with
  | none =>
      rw [visit?_eq_none_iff] at hvisit
      refine Or.inr ⟨fun x hx => Decidable.byContradiction fun hnot => ?_, rfl⟩
      exact hnot (hvisit x ((hadded x).2 ⟨hx, hnot⟩))
  | some visited =>
      obtain ⟨other, seen', stack'⟩ := visited
      obtain ⟨hmem, hnot⟩ := mem_of_visit? hvisit
      exact Or.inl ⟨other, ((hadded other).1 hmem).1, hnot, rfl⟩

/-- The first of some names is none of the others and was not seen. -/
theorem not_mem_cons_seen (nodup : (name :: names).Nodup)
    (apart : ∀ x ∈ name :: names, x ∉ seen) : ∀ x ∈ names, x ∉ name :: seen := by
  intro x hx hin
  rcases List.mem_cons.1 hin with rfl | hin
  · exact (List.nodup_cons.1 nodup).1 hx
  · exact apart x (List.mem_cons_of_mem _ hx) hin

/-- If no walk arrives anywhere, all names next to a name come before it. -/
theorem arrival?_eq_none (nodup : names.Nodup) (apart : ∀ x ∈ names, x ∉ seen)
    (plain : ∀ x ∈ names, x ∉ next x) (h : arrival? next seen names = none)
    {before after : List String} (hsplit : names = before ++ name :: after) :
    ∀ x ∈ next name, x ∈ before ∨ x ∈ seen := by
  induction names generalizing seen before with
  | nil => exact absurd hsplit (by simp)
  | cons first rest ih =>
      have hrest := (List.nodup_cons.1 nodup).2
      have hapart := not_mem_cons_seen nodup apart
      obtain ⟨x, -, -, hx⟩ | ⟨hseen, hnext⟩ :=
        arrival?_cons next rest (apart first List.mem_cons_self)
      · rw [h] at hx
        cases hx
      · rw [h] at hnext
        cases before with
        | nil =>
            obtain ⟨rfl, -⟩ := List.cons.inj hsplit
            intro x hx
            refine Or.inr ((List.mem_cons.1 (hseen x hx)).resolve_left ?_)
            rintro rfl
            exact plain x List.mem_cons_self hx
        | cons other before =>
            obtain ⟨rfl, htail⟩ := List.cons.inj hsplit
            intro x hx
            have hbefore := ih hrest hapart (fun x hx => plain x (List.mem_cons_of_mem _ hx))
              hnext.symm htail x hx
            rw [List.mem_cons] at hbefore ⊢
            rw [or_assoc, or_left_comm]
            exact hbefore

/-- If a walk arrives somewhere, then at a name that comes later than one it is next to. -/
theorem arrival?_eq_some (nodup : names.Nodup) (apart : ∀ x ∈ names, x ∉ seen)
    (h : arrival? next seen names = some other) :
    ∃ before name after, names = before ++ name :: after ∧ other ∈ next name ∧ other ≠ name ∧
      other ∉ before ∧ other ∉ seen := by
  induction names generalizing seen with
  | nil => cases h
  | cons first rest ih =>
      have hrest := (List.nodup_cons.1 nodup).2
      have hapart := not_mem_cons_seen nodup apart
      obtain ⟨x, hx, hunseen, harrival⟩ | ⟨-, hnext⟩ :=
        arrival?_cons next rest (apart first List.mem_cons_self)
      · rw [h] at harrival
        cases harrival
        rw [List.mem_cons, not_or] at hunseen
        exact ⟨[], first, rest, rfl, hx, hunseen.1, List.not_mem_nil, hunseen.2⟩
      · rw [h] at hnext
        obtain ⟨before, name, after, hsplit, hnextTo, hne, hbefore, hseen⟩ :=
          ih hrest hapart hnext.symm
        rw [List.mem_cons, not_or] at hseen
        refine ⟨first :: before, name, after, ?_, hnextTo, hne, ?_, hseen.2⟩
        · rw [hsplit]
          rfl
        · rw [List.mem_cons, not_or]
          exact ⟨hseen.1, hbefore⟩

end SettingStore.Catalog
