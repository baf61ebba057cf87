set_option autoImplicit false

/-! # Sorting by insertion

Lists are sorted by inserting their members one after another. The order is given as a
Boolean relation `notAfter`; members that are not told apart by it keep their order.
-/

namespace SettingStore.Ordered

variable {α : Type}

/-- Insert before the first member that need not come earlier. -/
def insert (notAfter : α → α → Bool) (a : α) : List α → List α
  | [] => [a]
  | b :: rest => if notAfter a b then a :: b :: rest else b :: insert notAfter a rest

/-- The members in order. -/
def sort (notAfter : α → α → Bool) : List α → List α
  | [] => []
  | a :: rest => insert notAfter a (sort notAfter rest)

/-- Inserting adds one member. -/
theorem insert_perm (notAfter : α → α → Bool) (a : α) (l : List α) :
    (insert notAfter a l).Perm (a :: l) := by
  induction l with
  | nil => exact List.Perm.refl _
  | cons b rest ih =>
      cases h : notAfter a b with
      | true => simp [insert, h]
      | false =>
          simp only [insert, h, Bool.false_eq_true, if_false]
          exact (ih.cons b).trans (List.Perm.swap a b rest)

/-- Sorting keeps the members. -/
theorem sort_perm (notAfter : α → α → Bool) (l : List α) : (sort notAfter l).Perm l := by
  induction l with
  | nil => exact List.Perm.refl _
  | cons a rest ih => exact (insert_perm notAfter a _).trans (ih.cons a)

/-- The members of a sorted list are those of the list. -/
theorem mem_sort {notAfter : α → α → Bool} {a : α} {l : List α} :
    a ∈ sort notAfter l ↔ a ∈ l :=
  (sort_perm notAfter l).mem_iff

/-- Inserting into a list in order keeps the order, if any two members can be ordered. -/
theorem insert_pairwise {notAfter : α → α → Bool}
    (total : ∀ a b, notAfter a b = true ∨ notAfter b a = true)
    (trans : ∀ a b c, notAfter a b = true → notAfter b c = true → notAfter a c = true)
    (a : α) {l : List α} (h : l.Pairwise (notAfter · · = true)) :
    (insert notAfter a l).Pairwise (notAfter · · = true) := by
  induction l with
  | nil => exact List.pairwise_singleton _ a
  | cons b rest ih =>
      obtain ⟨hb, hrest⟩ := List.pairwise_cons.1 h
      cases hab : notAfter a b with
      | true =>
          rw [insert, if_pos hab]
          refine List.pairwise_cons.2 ⟨?_, h⟩
          intro c hc
          rcases List.mem_cons.1 hc with rfl | hc
          · exact hab
          · exact trans a b c hab (hb c hc)
      | false =>
          rw [insert, if_neg (by simp [hab])]
          refine List.pairwise_cons.2 ⟨?_, ih hrest⟩
          intro c hc
          rcases List.mem_cons.1 ((insert_perm notAfter a rest).mem_iff.1 hc) with rfl | hc
          · exact (total c b).resolve_left (by simp [hab])
          · exact hb c hc

/-- Sorting puts the members in order, if any two of them can be ordered. -/
theorem sort_pairwise {notAfter : α → α → Bool}
    (total : ∀ a b, notAfter a b = true ∨ notAfter b a = true)
    (trans : ∀ a b c, notAfter a b = true → notAfter b c = true → notAfter a c = true)
    (l : List α) : (sort notAfter l).Pairwise (notAfter · · = true) := by
  induction l with
  | nil => exact List.Pairwise.nil
  | cons a rest ih => exact insert_pairwise total trans a ih

/-! ## Members that stand for others -/

theorem insert_map {β : Type} (f : α → β) (notAfter : β → β → Bool) (a : α) (l : List α) :
    insert notAfter (f a) (l.map f) = (insert (fun a b => notAfter (f a) (f b)) a l).map f := by
  induction l with
  | nil => rfl
  | cons b rest ih =>
      rw [List.map_cons, insert, insert, ih]
      split <;> rfl

/-- Members can be sorted by what stands for them. -/
theorem sort_map {β : Type} (f : α → β) (notAfter : β → β → Bool) (l : List α) :
    sort notAfter (l.map f) = (sort (fun a b => notAfter (f a) (f b)) l).map f := by
  induction l with
  | nil => rfl
  | cons a rest ih => rw [List.map_cons, sort, ih, insert_map, sort]

end SettingStore.Ordered
