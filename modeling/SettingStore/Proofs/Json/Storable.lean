import SettingStore.Proofs.Json.RoundTrip

set_option autoImplicit false

/-! # Values that can be stored

A value can be stored if its text denotes it again (`Json.Storable.read`). Texts and whole
numbers always can be, an array whose items can (`Json.storable_array_iff`), an object whose
members can (`Json.storable_object_iff`), and it still can be after members were replaced or set
(`Json.Storable.replaced`, `Json.Storable.setMember`).
-/

namespace SettingStore

/-- The value is one that its text denotes. -/
structure Json.Storable (v : Json) : Prop where
  canonical : v.Canonical
  floats : v.FloatsReadBack
  shallow : v.depth ≤ Json.maxDepth

theorem Json.Storable.read {v : Json} (h : v.Storable) : ofText? v.text = some v := by
  rw [ofText?_text h.canonical h.floats, if_pos h.shallow]

namespace Json

/-! ## Texts and numbers -/

theorem storable_string (s : String) : (string s).Storable :=
  ⟨trivial, fun _ hx => absurd hx List.not_mem_nil, Nat.zero_le _⟩

theorem storable_ofInt {n : Int} (signed : Word.Signed n) : (ofInt n).Storable := by
  refine ⟨signed.fits, fun x hx => ?_, Nat.zero_le _⟩
  cases List.mem_singleton.1 hx

/-! ## Arrays -/

theorem canonicalList_iff {items : List Json} :
    CanonicalList items ↔ ∀ v ∈ items, v.Canonical := by
  induction items with
  | nil => simp [CanonicalList]
  | cons v rest ih => rw [CanonicalList, ih, List.forall_mem_cons]

theorem mem_itemNumbers {items : List Json} {n : Number} :
    n ∈ itemNumbers items ↔ ∃ v ∈ items, n ∈ numbers v := by
  induction items with
  | nil => simp [itemNumbers]
  | cons v rest ih => simp [itemNumbers, ih]

theorem depthList_lt_iff {items : List Json} {n : Nat} (pos : 0 < n) :
    depthList items < n ↔ ∀ v ∈ items, v.depth < n := by
  induction items with
  | nil => simp [depthList, pos]
  | cons v rest ih => rw [depthList, Nat.max_lt, ih, List.forall_mem_cons]

/-- An array can be stored if its items can be stored one level deeper. -/
theorem storable_array_iff {items : List Json} :
    (array items).Storable ↔ ∀ v ∈ items, v.Storable ∧ v.depth < maxDepth := by
  have hdepth : depthList items < maxDepth ↔ ∀ v ∈ items, v.depth < maxDepth :=
    depthList_lt_iff (by decide)
  constructor
  · rintro ⟨hcanonical, hfloats, hshallow⟩ v hv
    have hless := hdepth.1 hshallow v hv
    refine ⟨⟨canonicalList_iff.1 hcanonical v hv, ?_, Nat.le_of_lt hless⟩, hless⟩
    exact fun x hx => hfloats x (mem_itemNumbers.2 ⟨v, hv, hx⟩)
  · intro hall
    refine ⟨canonicalList_iff.2 fun v hv => (hall v hv).1.canonical, ?_,
      hdepth.2 fun v hv => (hall v hv).2⟩
    intro x hx
    obtain ⟨v, hv, hx⟩ := mem_itemNumbers.1 hx
    exact (hall v hv).1.floats x hx

theorem depth_strings (l : List String) : (array (l.map string)).depth = 1 := by
  have hdepth : depthList (l.map string) = 0 := by
    induction l with
    | nil => rfl
    | cons s rest ih => rw [List.map_cons, depthList, ih]; rfl
  rw [depth, hdepth]

theorem storable_strings (l : List String) : (array (l.map string)).Storable := by
  refine storable_array_iff.2 fun v hv => ?_
  obtain ⟨s, -, rfl⟩ := List.mem_map.1 hv
  have hroom : 0 < maxDepth := by decide
  exact ⟨storable_string s, hroom⟩

/-! ## Objects -/

theorem canonicalMembers_iff {members : List (String × Json)} :
    CanonicalMembers members ↔ ∀ m ∈ members, m.2.Canonical := by
  induction members with
  | nil => simp [CanonicalMembers]
  | cons m rest ih => rw [CanonicalMembers, ih, List.forall_mem_cons]

theorem mem_memberNumbers {members : List (String × Json)} {n : Number} :
    n ∈ memberNumbers members ↔ ∃ m ∈ members, n ∈ numbers m.2 := by
  induction members with
  | nil => simp [memberNumbers]
  | cons m rest ih => simp [memberNumbers, ih]

theorem depthMembers_lt_iff {members : List (String × Json)} {n : Nat} (pos : 0 < n) :
    depthMembers members < n ↔ ∀ m ∈ members, m.2.depth < n := by
  induction members with
  | nil => simp [depthMembers, pos]
  | cons m rest ih => rw [depthMembers, Nat.max_lt, ih, List.forall_mem_cons]

/-- An object can be stored if its names increase and the values of its members can be stored
one level deeper. -/
theorem storable_object_iff {members : List (String × Json)} :
    (object members).Storable ↔ members.Pairwise (·.1 < ·.1) ∧
      ∀ m ∈ members, m.2.Storable ∧ m.2.depth < maxDepth := by
  have hdepth : depthMembers members < maxDepth ↔ ∀ m ∈ members, m.2.depth < maxDepth :=
    depthMembers_lt_iff (by decide)
  constructor
  · rintro ⟨⟨hnames, hcanonical⟩, hfloats, hshallow⟩
    have hless := hdepth.1 hshallow
    refine ⟨hnames, fun m hm => ⟨⟨?_, ?_, Nat.le_of_lt (hless m hm)⟩, hless m hm⟩⟩
    · exact canonicalMembers_iff.1 hcanonical m hm
    · exact fun x hx => hfloats x (mem_memberNumbers.2 ⟨m, hm, hx⟩)
  · rintro ⟨hnames, hall⟩
    refine ⟨⟨hnames, canonicalMembers_iff.2 fun m hm => (hall m hm).1.canonical⟩, ?_,
      hdepth.2 fun m hm => (hall m hm).2⟩
    intro x hx
    obtain ⟨m, hm, hx⟩ := mem_memberNumbers.1 hx
    exact (hall m hm).1.floats x hx

/-! ## Changes to members -/

theorem mem_of_member? {name : String} {value : Json} {members : List (String × Json)}
    (h : member? name members = some value) : (name, value) ∈ members := by
  obtain ⟨before, after, hsplit, -⟩ := List.lookup_eq_some_iff.1 h
  rw [hsplit]
  exact List.mem_append_right _ List.mem_cons_self

/-- A member after those with a name got another value. -/
theorem mem_of_mem_replaced {name : String} {value : Json} {m : String × Json}
    {members : List (String × Json)}
    (h : m ∈ members.map fun m => if m.1 == name then (m.1, value) else m) :
    m = (name, value) ∨ (m ∈ members ∧ m.1 ≠ name) := by
  obtain ⟨original, horiginal, rfl⟩ := List.mem_map.1 h
  split
  · rename_i hsame
    exact Or.inl (by rw [beq_iff_eq.1 hsame])
  · rename_i hne
    exact Or.inr ⟨horiginal, fun heq => hne (beq_iff_eq.2 heq)⟩

/-- The members with a name, if there are any, have the new value. -/
theorem member?_replaced_self (name : String) (value : Json) (members : List (String × Json)) :
    member? name (members.map fun m => if m.1 == name then (m.1, value) else m)
      = (member? name members).map fun _ => value := by
  unfold member?
  induction members with
  | nil => rfl
  | cons m rest ih =>
      obtain ⟨other, v⟩ := m
      rw [List.map_cons, List.lookup_cons]
      by_cases h : other = name
      · simp [h]
      · simp only [beq_eq_false_iff_ne.2 h, beq_eq_false_iff_ne.2 (Ne.symm h), Bool.false_eq_true,
          if_false, List.lookup_cons]
        exact ih

/-- The others keep theirs. -/
theorem member?_replaced_of_ne {name other : String} (h : other ≠ name) (value : Json)
    (members : List (String × Json)) :
    member? other (members.map fun m => if m.1 == name then (m.1, value) else m)
      = member? other members := by
  unfold member?
  induction members with
  | nil => rfl
  | cons m rest ih =>
      obtain ⟨first, v⟩ := m
      rw [List.map_cons, List.lookup_cons]
      by_cases hfirst : first = name
      · rw [if_pos (beq_iff_eq.2 hfirst), List.lookup_cons, hfirst, beq_eq_false_iff_ne.2 h]
        exact ih
      · rw [if_neg (by simpa using hfirst), List.lookup_cons, ih]

/-- Replacing values keeps the names. -/
theorem names_replaced (name : String) (value : Json) (members : List (String × Json)) :
    (members.map fun m => if m.1 == name then (m.1, value) else m).map (·.1)
      = members.map (·.1) := by
  rw [List.map_map]
  refine List.map_congr_left fun m _ => ?_
  rw [Function.comp_apply]
  split <;> rfl

theorem pairwise_replaced (name : String) (value : Json) {members : List (String × Json)}
    (h : members.Pairwise (·.1 < ·.1)) :
    (members.map fun m => if m.1 == name then (m.1, value) else m).Pairwise (·.1 < ·.1) := by
  have hnames : (members.map (·.1)).Pairwise (· < ·) := List.pairwise_map.2 h
  rw [← names_replaced name value] at hnames
  exact List.pairwise_map.1 hnames

/-- A member after one was set. -/
theorem mem_of_mem_setMember {name : String} {value : Json} {m : String × Json} :
    ∀ {members : List (String × Json)}, m ∈ setMember name value members →
      m = (name, value) ∨ m ∈ members
  | [], h => Or.inl (List.mem_singleton.1 h)
  | (other, v) :: rest, h => by
      rw [setMember] at h
      split at h
      · rcases List.mem_cons.1 h with h | h
        · exact Or.inl h
        · exact Or.inr (List.mem_cons_of_mem _ h)
      · split at h
        · exact List.mem_cons.1 h
        · rcases List.mem_cons.1 h with h | h
          · exact Or.inr (h ▸ List.mem_cons_self)
          · exact (mem_of_mem_setMember h).imp_right (List.mem_cons_of_mem _)

/-- Setting a member keeps the names in order. -/
theorem pairwise_setMember (name : String) (value : Json) :
    ∀ {members : List (String × Json)}, members.Pairwise (·.1 < ·.1) →
      (setMember name value members).Pairwise (·.1 < ·.1)
  | [], _ => List.pairwise_singleton _ _
  | (other, v) :: rest, h => by
      obtain ⟨hother, hrest⟩ := List.pairwise_cons.1 h
      rw [setMember]
      split
      · rename_i hsame
        exact List.pairwise_cons.2 ⟨fun m hm => hsame ▸ hother m hm, hrest⟩
      · rename_i hne
        split
        · rename_i hlt
          refine List.pairwise_cons.2 ⟨fun m hm => ?_, h⟩
          rcases List.mem_cons.1 hm with rfl | hm
          · exact hlt
          · exact String.lt_trans hlt (hother m hm)
        · rename_i hnlt
          refine List.pairwise_cons.2 ⟨fun m hm => ?_, pairwise_setMember name value hrest⟩
          rcases mem_of_mem_setMember hm with rfl | hm
          · exact Std.lt_of_le_of_ne (String.not_lt.1 hnlt) (Ne.symm hne)
          · exact hother m hm

theorem canonical_object_iff {members : List (String × Json)} :
    (object members).Canonical ↔
      members.Pairwise (·.1 < ·.1) ∧ ∀ m ∈ members, m.2.Canonical := by
  rw [Canonical, canonicalMembers_iff]

namespace Canonical

variable {members : List (String × Json)} {name : String} {value : Json}

theorem replaced (h : (object members).Canonical) (hvalue : value.Canonical) :
    (object (members.map fun m => if m.1 == name then (m.1, value) else m)).Canonical := by
  obtain ⟨hnames, hall⟩ := canonical_object_iff.1 h
  refine canonical_object_iff.2 ⟨pairwise_replaced name value hnames, fun m hm => ?_⟩
  rcases mem_of_mem_replaced hm with rfl | ⟨hm, -⟩
  · exact hvalue
  · exact hall m hm

theorem setMember (h : (object members).Canonical) (hvalue : value.Canonical) :
    (object (Json.setMember name value members)).Canonical := by
  obtain ⟨hnames, hall⟩ := canonical_object_iff.1 h
  refine canonical_object_iff.2 ⟨pairwise_setMember name value hnames, fun m hm => ?_⟩
  rcases mem_of_mem_setMember hm with rfl | hm
  · exact hvalue
  · exact hall m hm

end Canonical

namespace Storable

variable {members : List (String × Json)} {name : String} {value : Json}

theorem replaced (h : (object members).Storable) (hvalue : value.Storable)
    (shallow : value.depth < maxDepth) :
    (object (members.map fun m => if m.1 == name then (m.1, value) else m)).Storable := by
  obtain ⟨hnames, hall⟩ := storable_object_iff.1 h
  refine storable_object_iff.2 ⟨pairwise_replaced name value hnames, fun m hm => ?_⟩
  rcases mem_of_mem_replaced hm with rfl | ⟨hm, -⟩
  · exact ⟨hvalue, shallow⟩
  · exact hall m hm

theorem setMember (h : (object members).Storable) (hvalue : value.Storable)
    (shallow : value.depth < maxDepth) :
    (object (Json.setMember name value members)).Storable := by
  obtain ⟨hnames, hall⟩ := storable_object_iff.1 h
  refine storable_object_iff.2 ⟨pairwise_setMember name value hnames, fun m hm => ?_⟩
  rcases mem_of_mem_setMember hm with rfl | hm
  · exact ⟨hvalue, shallow⟩
  · exact hall m hm

end Storable

end Json

end SettingStore
