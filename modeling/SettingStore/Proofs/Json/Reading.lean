import SettingStore.Proofs.Json.Storable

set_option autoImplicit false

/-! # What reading answers

Every value that is read from a text is canonical, and its containers stand no deeper than
reading allows (`canonical_of_ofText?`). So it can be stored, if the binary64 numbers in it read
back (`storable_of_ofText?`).
-/

namespace SettingStore

/-- A whole number that a token denotes fits a word. -/
theorem Number.fits_of_ofNumeral? {n : Numeral} {k : Int} (h : ofNumeral? n = some (.int k)) :
    Word.Fits k := by
  rw [ofNumeral?] at h
  by_cases hword : n.isWord = true
  · rw [if_pos hword, Option.some.injEq, Number.int.injEq] at h
    simp only [Numeral.isWord, Bool.and_eq_true, decide_eq_true_eq] at hword
    exact h ▸ hword.1.2
  · rw [if_neg hword] at h
    obtain ⟨x, -, hx⟩ := Option.map_eq_some_iff.1 h
    cases hx

namespace Json

mutual

/-- A value of a tree is canonical and not deeper than allowed. -/
theorem canonical_of_ofTree? : ∀ {t : Tree} {depth : Nat} {v : Json}, ofTree? depth t = some v →
    v.Canonical ∧ v.depth ≤ depth
  | .null, depth, v, h => by
      cases h
      exact ⟨trivial, Nat.zero_le _⟩
  | .bool b, depth, v, h => by
      cases h
      exact ⟨trivial, Nat.zero_le _⟩
  | .number n, depth, v, h => by
      obtain ⟨number, hnumber, rfl⟩ := Option.map_eq_some_iff.1 h
      refine ⟨?_, Nat.zero_le _⟩
      cases number with
      | int k => exact Number.fits_of_ofNumeral? hnumber
      | float x => trivial
  | .string pieces, depth, v, h => by
      obtain ⟨cs, -, rfl⟩ := Option.map_eq_some_iff.1 h
      exact ⟨trivial, Nat.zero_le _⟩
  | .array items, depth, v, h => by
      rw [ofTree?] at h
      by_cases hzero : depth = 0
      · simp [hzero] at h
      · rw [if_neg hzero] at h
        obtain ⟨vs, hvs, rfl⟩ := Option.map_eq_some_iff.1 h
        obtain ⟨hcanonical, hdepth⟩ := canonical_of_ofItems? hvs
        refine ⟨hcanonical, ?_⟩
        rw [Json.depth]
        omega
  | .object members, depth, v, h => by
      rw [ofTree?] at h
      by_cases hzero : depth = 0
      · simp [hzero] at h
      · rw [if_neg hzero] at h
        obtain ⟨result, hresult, rfl⟩ := Option.map_eq_some_iff.1 h
        obtain ⟨hnames, hall⟩ := canonical_of_ofMembers? List.Pairwise.nil
          (fun m hm => absurd hm List.not_mem_nil) hresult
        refine ⟨⟨hnames, canonicalMembers_iff.2 fun m hm => (hall m hm).1⟩, ?_⟩
        have hdepth : depthMembers result < depth :=
          (depthMembers_lt_iff (by omega)).2 fun m hm => by
            have := (hall m hm).2
            omega
        exact hdepth

theorem canonical_of_ofItems? : ∀ {items : List Tree} {depth : Nat} {vs : List Json},
    ofItems? depth items = some vs → CanonicalList vs ∧ depthList vs ≤ depth
  | [], depth, vs, h => by
      cases h
      exact ⟨trivial, Nat.zero_le _⟩
  | t :: rest, depth, vs, h => by
      rw [ofItems?] at h
      split at h
      · rename_i v others hv hothers
        cases h
        obtain ⟨hcanonical, hdepth⟩ := canonical_of_ofTree? hv
        obtain ⟨hcanonical', hdepth'⟩ := canonical_of_ofItems? hothers
        exact ⟨⟨hcanonical, hcanonical'⟩, Nat.max_le.2 ⟨hdepth, hdepth'⟩⟩
      · cases h

/-- Members that are added in turn to others stay in the order of their names. -/
theorem canonical_of_ofMembers? : ∀ {members : List (List Piece × Tree)} {depth : Nat}
    {read result : List (String × Json)}, read.Pairwise (·.1 < ·.1) →
    (∀ m ∈ read, m.2.Canonical ∧ m.2.depth ≤ depth) → ofMembers? depth read members = some result →
    result.Pairwise (·.1 < ·.1) ∧ ∀ m ∈ result, m.2.Canonical ∧ m.2.depth ≤ depth
  | [], depth, read, result, hnames, hall, h => by
      cases h
      exact ⟨hnames, hall⟩
  | (name, t) :: rest, depth, read, result, hnames, hall, h => by
      rw [ofMembers?] at h
      split at h
      · rename_i cs v hcs hv
        refine canonical_of_ofMembers? (pairwise_setMember _ v hnames) (fun m hm => ?_) h
        rcases mem_of_mem_setMember hm with rfl | hm
        · exact canonical_of_ofTree? hv
        · exact hall m hm
      · cases h

end

/-- A value that is read from a text is canonical and not deeper than a text may be. -/
theorem canonical_of_ofText? {text : String} {v : Json} (h : ofText? text = some v) :
    v.Canonical ∧ v.depth ≤ maxDepth := by
  obtain ⟨t, -, ht⟩ := Option.bind_eq_some_iff.1 h
  exact canonical_of_ofTree? ht

/-- It can be stored, if its binary64 numbers read back. -/
theorem storable_of_ofText? {text : String} {v : Json} (h : ofText? text = some v)
    (floats : v.FloatsReadBack) : v.Storable :=
  ⟨(canonical_of_ofText? h).1, floats, (canonical_of_ofText? h).2⟩

end Json

end SettingStore
