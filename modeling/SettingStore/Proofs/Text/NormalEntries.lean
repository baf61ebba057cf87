import SettingStore.Proofs.Text.Entries
import SettingStore.Proofs.Text.UpperCase

set_option autoImplicit false

/-! # The normal form of a list of entries

What a text lists is told by its pieces alone: the text is split at every comma and blank, and
what is empty is dropped. Under a mapping that keeps pieces pieces, the normal form has as its
pieces the images of those of the text, each where it occurs first, and it is the same for two
texts exactly if these are (`normal_entries_canonical`).
-/

namespace SettingStore.Text

variable {e s : String} {map : String → String}

/-! ## Pieces -/

/-- The pieces between commas and blanks that are not empty. -/
def pieces (s : String) : List String :=
  ((s.toList.splitOnP separatesEntries).map String.ofList).filter (· ≠ "")

/-- A text that can be a piece: it is not empty, and has neither commas nor blanks. -/
def IsPiece (e : String) : Prop := e ≠ "" ∧ Plain e

/-- Cutting a text is splitting it at each separator. -/
theorem segments_eq_splitOnP (separates : Char → Bool) (cs : List Char) :
    segments separates cs = cs.splitOnP separates := by
  induction cs with
  | nil => rw [List.splitOnP_nil, segments]
  | cons c rest ih =>
      rw [List.splitOnP_cons_eq_if_modifyHead, ← ih, segments]
      -- There is a first segment to which the character can be added.
      cases hrest : segments separates rest with
      | nil => exact absurd hrest (segments_ne_nil separates rest)
      | cons first others => rfl

/-- The entries of a text are its pieces. -/
theorem entries_eq_pieces (s : String) : entries s = pieces s := by
  have hnonempty : (fun cs : List Char => !cs.isEmpty)
      = (fun e : String => decide (e ≠ "")) ∘ String.ofList := by
    funext cs
    rw [Function.comp_apply, Bool.eq_iff_iff, decide_eq_true_eq, Bool.not_eq_true',
      List.isEmpty_eq_false_iff, ne_eq, ne_eq, ← String.toList_inj, String.toList_ofList,
      String.toList_empty]
  calc entries s
      = ((s.toList.splitOnP separatesEntries).filter (!·.isEmpty)).map String.ofList := by
        rw [entries, words, segments_eq_splitOnP]
    _ = pieces s := by rw [pieces, List.filter_map, hnonempty]

theorem isPiece_of_mem_pieces (h : e ∈ pieces s) : IsPiece e := by
  rw [← entries_eq_pieces] at h
  exact (of_mem_entries h).symm

/-! ## The normal form -/

section Mapped

variable (keeps : ∀ e, IsPiece e → IsPiece (map e))
include keeps

/-- What the normal form joins are pieces. -/
theorem isPiece_of_mem_mapped (h : e ∈ ((pieces s).map map).eraseDups) : IsPiece e := by
  obtain ⟨d, hd, rfl⟩ := mem_eraseDups_map.1 h
  exact keeps d (isPiece_of_mem_pieces hd)

theorem pieces_normalEntries (s : String) :
    pieces (normalEntries map s) = ((pieces s).map map).eraseDups := by
  have hpiece : ∀ e ∈ ((pieces s).map map).eraseDups, IsPiece e :=
    fun e he => isPiece_of_mem_mapped keeps he
  calc pieces (normalEntries map s)
      = entries (joinEntries ((pieces s).map map).eraseDups) := by
        rw [← entries_eq_pieces (normalEntries map s), normalEntries, entries_eq_pieces s]
    _ = ((pieces s).map map).eraseDups.filter (· ≠ "") :=
        entries_joinEntries fun e he => (hpiece e he).2
    _ = ((pieces s).map map).eraseDups :=
        List.filter_eq_self.2 fun e he => decide_eq_true (hpiece e he).1

/-- The normal form tells the pieces that it joins, and is told by them. -/
theorem normalEntries_eq_iff (s t : String) :
    normalEntries map s = normalEntries map t ↔
      ((pieces s).map map).eraseDups = ((pieces t).map map).eraseDups := by
  constructor
  · intro h
    rw [← pieces_normalEntries keeps, ← pieces_normalEntries keeps, h]
  · intro h
    rw [normalEntries, normalEntries, entries_eq_pieces, entries_eq_pieces, h]

theorem normalEntries_normalEntries (again : ∀ e, IsPiece e → map (map e) = map e) (s : String) :
    normalEntries map (normalEntries map s) = normalEntries map s := by
  rw [normalEntries_eq_iff keeps, pieces_normalEntries keeps]
  -- What the normal form joins are images, which the mapping keeps, and each stands there once.
  have hkept : ∀ e ∈ ((pieces s).map map).eraseDups, map e = e := by
    intro e he
    obtain ⟨d, hd, rfl⟩ := mem_eraseDups_map.1 he
    exact again d (isPiece_of_mem_pieces hd)
  rw [List.map_congr_left hkept, List.map_id']
  exact eraseDups_eq_self (nodup_eraseDups _)

end Mapped

/-- A text and its normal form list the same. For every mapping that keeps pieces pieces: the
pieces of the normal form are the images of the pieces of the text without later repeats, in the
order of their first occurrence; two texts have one normal form exactly if these are the same;
and if the mapping keeps its images, the normal form is its own normal form. -/
theorem normal_entries_canonical {map : String → String}
    (keeps : ∀ e, IsPiece e → IsPiece (map e)) :
    (∀ s, pieces (normalEntries map s) = ((pieces s).map map).eraseDups) ∧
    (∀ s t, normalEntries map s = normalEntries map t ↔
      ((pieces s).map map).eraseDups = ((pieces t).map map).eraseDups) ∧
    ((∀ e, IsPiece e → map (map e) = map e) →
      ∀ s, normalEntries map (normalEntries map s) = normalEntries map s) :=
  ⟨pieces_normalEntries keeps, normalEntries_eq_iff keeps, normalEntries_normalEntries keeps⟩

theorem isPiece_upperCase (h : IsPiece e) : IsPiece (upperCase e) :=
  ⟨fun hempty => h.1 (upperCase_eq_empty_iff.1 hempty), not_separatesEntries_upperCase h.2⟩

/-- Method names in two spellings of one list. -/
theorem normal_entries_canonical_of_methods :
    (∀ e, IsPiece e → IsPiece (upperCase e)) ∧
    (∀ e, IsPiece e → upperCase (upperCase e) = upperCase e) ∧
    pieces (normalEntries upperCase "put, get\u2003Put,,delete ") = ["PUT", "GET", "DELETE"] ∧
    normalEntries upperCase "put, get\u2003Put,,delete "
      = normalEntries upperCase "PUT GET\tdelete" ∧
    normalEntries upperCase (normalEntries upperCase "put get")
      = normalEntries upperCase "put get" := by
  have hkeeps : ∀ e, IsPiece e → IsPiece (upperCase e) := fun _ => isPiece_upperCase
  have hagain : ∀ e, IsPiece e → upperCase (upperCase e) = upperCase e :=
    fun e _ => upperCase_upperCase e
  obtain ⟨hpieces, hsame, htwice⟩ := normal_entries_canonical hkeeps
  refine ⟨hkeeps, hagain, ?_, (hsame _ _).2 ?_, htwice hagain _⟩
  · rw [hpieces]
    decide +kernel
  · decide +kernel

end SettingStore.Text
