import Mathlib.Data.List.Forall2
import Mathlib.Data.List.TakeWhile
import SettingStore.Text.Blank
import SettingStore.Text.Case
import SettingStore.Text.Integer

set_option autoImplicit false

/-! # Spellings

One thing may be spelled in several ways: with blanks around it (`Wraps`), with ASCII letters in
either case (`SameLetters`), and a whole number with a sign and with leading zeros
(`SpellsWhole`). Trimming, mapping to lower case and reading digits accept exactly these
spellings (`trimChars_eq_iff`, `asciiLower_eq_iff`, `integer?_eq_some_iff`).
-/

namespace SettingStore.Text

variable {cs inner before after : List Char}

/-! ## Blanks around a text -/

/-- The text `cs` is `inner` with blanks around it. -/
def Wraps (inner cs : List Char) : Prop :=
  ∃ before after : List Char, (∀ c ∈ before, isBlank c = true) ∧
    (∀ c ∈ after, isBlank c = true) ∧ cs = before ++ inner ++ after

theorem exists_dropTrailing (p : Char → Bool) (cs : List Char) :
    ∃ after, (∀ c ∈ after, p c = true) ∧ cs = dropTrailing p cs ++ after := by
  refine ⟨(cs.reverse.takeWhile p).reverse, fun c hc => ?_, ?_⟩
  · exact List.mem_takeWhile_imp (List.mem_reverse.1 hc)
  · unfold dropTrailing
    rw [← List.reverse_append, List.takeWhile_append_dropWhile, List.reverse_reverse]

theorem dropTrailing_append {p : Char → Bool} (hafter : ∀ c ∈ after, p c = true) :
    dropTrailing p (cs ++ after) = dropTrailing p cs := by
  unfold dropTrailing
  rw [List.reverse_append, List.dropWhile_append_of_pos (by simpa using hafter)]

theorem toList_trim (s : String) : (trim s).toList = trimChars s.toList := String.toList_ofList

/-- Every text is its trimmed form with blanks around it. -/
theorem wraps_trimChars (cs : List Char) : Wraps (trimChars cs) cs := by
  obtain ⟨after, hafter, heq⟩ := exists_dropTrailing isBlank (cs.dropWhile isBlank)
  refine ⟨cs.takeWhile isBlank, after, fun c => List.mem_takeWhile_imp, hafter, ?_⟩
  calc cs
      = cs.takeWhile isBlank ++ cs.dropWhile isBlank := List.takeWhile_append_dropWhile.symm
    _ = cs.takeWhile isBlank ++ (trimChars cs ++ after) := by rw [trimChars, ← heq]
    _ = cs.takeWhile isBlank ++ trimChars cs ++ after := (List.append_assoc ..).symm

/-- Trimming does not see the blanks around a text. -/
theorem trimChars_append (hbefore : ∀ c ∈ before, isBlank c = true)
    (hafter : ∀ c ∈ after, isBlank c = true) :
    trimChars (before ++ cs ++ after) = trimChars cs := by
  unfold trimChars
  rw [List.append_assoc, List.dropWhile_append_of_pos hbefore, List.dropWhile_append]
  split
  · -- Without any other character the blanks before and after are one.
    rename_i hempty
    rw [List.isEmpty_iff.1 hempty, List.dropWhile_eq_nil_iff.2 hafter]
  · exact dropTrailing_append hafter

/-- A text without blanks at its ends is what trimming leaves exactly of the texts that wrap
it. -/
theorem trimChars_eq_iff (first : ∀ c, inner.head? = some c → isBlank c = false)
    (last : ∀ c, inner.getLast? = some c → isBlank c = false) :
    trimChars cs = inner ↔ Wraps inner cs := by
  constructor
  · rintro rfl
    exact wraps_trimChars cs
  · rintro ⟨before, after, hbefore, hafter, rfl⟩
    rw [trimChars_append hbefore hafter, trimChars_eq_self first last]

/-! ## Whole numbers -/

/-- The digits of a natural number, with any number of zeros in front. -/
def IsDigits (digits : List Char) : Prop := digits ≠ [] ∧ ∀ c ∈ digits, c.isDigit = true

/-- A whole number as it may be written: one or more decimal digits, after a sign or without. -/
inductive SpellsWhole : List Char → Int → Prop
  | unsigned {digits : List Char} (h : IsDigits digits) :
      SpellsWhole digits (Nat.ofDigitChars 10 digits 0)
  | plus {digits : List Char} (h : IsDigits digits) :
      SpellsWhole ('+' :: digits) (Nat.ofDigitChars 10 digits 0)
  | minus {digits : List Char} (h : IsDigits digits) :
      SpellsWhole ('-' :: digits) (-(Nat.ofDigitChars 10 digits 0 : Int))

theorem natural?_eq_some_iff {n : Nat} :
    natural? cs = some n ↔ IsDigits cs ∧ Nat.ofDigitChars 10 cs 0 = n := by
  have hrefused : (cs.isEmpty || !cs.all Char.isDigit) = true ↔ ¬ IsDigits cs := by
    simp [IsDigits, or_iff_not_imp_left]
  unfold natural?
  by_cases hdigits : IsDigits cs
  · rw [if_neg (mt hrefused.1 (not_not.2 hdigits))]
    simp [hdigits]
  · rw [if_pos (hrefused.2 hdigits)]
    simp [hdigits]

/-- What is read as a whole number are the spellings of it. -/
theorem integer?_eq_some_iff {n : Int} : integer? cs = some n ↔ SpellsWhole cs n := by
  constructor
  · intro h
    unfold integer? at h
    -- After a sign and without one, what is read are digits.
    split at h <;> obtain ⟨m, hm, rfl⟩ := Option.map_eq_some_iff.1 h <;>
      obtain ⟨hdigits, rfl⟩ := natural?_eq_some_iff.1 hm
    · exact .plus hdigits
    · exact .minus hdigits
    · exact .unsigned hdigits
  · intro h
    cases h with
    | unsigned hdigits =>
        obtain ⟨c, rest, rfl⟩ := List.exists_cons_of_ne_nil hdigits.1
        rw [integer?_eq_natural? (hdigits.2 c List.mem_cons_self),
          natural?_eq_some_iff.2 ⟨hdigits, rfl⟩]
        rfl
    | plus hdigits =>
        show (natural? _).map _ = _
        rw [natural?_eq_some_iff.2 ⟨hdigits, rfl⟩]
        rfl
    | minus hdigits =>
        show (natural? _).map _ = _
        rw [natural?_eq_some_iff.2 ⟨hdigits, rfl⟩]
        rfl

theorem isBlank_of_isDigit {c : Char} (h : c.isDigit = true) : isBlank c = false := by
  have hrange : 48 ≤ c.toNat ∧ c.toNat ≤ 57 := by
    simpa [Char.isDigit, UInt32.le_iff_toNat_le] using h
  simp [isBlank, blankRanges]
  omega

/-- There is no blank in a whole number. -/
theorem SpellsWhole.isBlank_eq_false {n : Int} (h : SpellsWhole cs n) {c : Char} (hc : c ∈ cs) :
    isBlank c = false := by
  have digit : ∀ {digits}, IsDigits digits → ∀ {d}, d ∈ digits → isBlank d = false :=
    fun h _ hd => isBlank_of_isDigit (h.2 _ hd)
  cases h with
  | unsigned hdigits => exact digit hdigits hc
  | plus hdigits | minus hdigits =>
      rcases List.mem_cons.1 hc with rfl | hc
      · decide
      · exact digit hdigits hc

/-- What is read as a signed 64-bit number are the spellings of it with blanks around them. -/
theorem signed?_trimChars_eq_some_iff {n : Int} :
    signed? (trimChars cs) = some n ↔
      (∃ inner, Wraps inner cs ∧ SpellsWhole inner n) ∧ Word.Signed n := by
  unfold signed?
  rw [Option.filter_eq_some_iff, decide_eq_true_eq]
  apply and_congr_left'
  constructor
  · intro h
    exact ⟨trimChars cs, wraps_trimChars cs, integer?_eq_some_iff.1 h⟩
  · rintro ⟨inner, hwraps, hspells⟩
    have htrim : trimChars cs = inner :=
      (trimChars_eq_iff (fun c hc => hspells.isBlank_eq_false (List.mem_of_head? hc))
        fun c hc => hspells.isBlank_eq_false (List.mem_of_getLast? hc)).2 hwraps
    rw [htrim]
    exact integer?_eq_some_iff.2 hspells

/-! ## Letters in either case -/

/-- The same character, or the capital and the small form of one ASCII letter. -/
def SameLetter (c d : Char) : Prop :=
  c = d ∨ (('A' ≤ c ∧ c ≤ 'Z') ∧ d.toNat = c.toNat + 32) ∨
    (('A' ≤ d ∧ d ≤ 'Z') ∧ c.toNat = d.toNat + 32)

/-- The texts are the same but for the case of ASCII letters. -/
def SameLetters (s t : String) : Prop := List.Forall₂ SameLetter s.toList t.toList

theorem capital_iff {c : Char} : ('A' ≤ c ∧ c ≤ 'Z') ↔ 65 ≤ c.toNat ∧ c.toNat ≤ 90 := by
  simp only [Char.le_def, UInt32.le_iff_toNat_le]
  exact Iff.rfl

theorem toNat_asciiLower (c : Char) :
    (asciiLower c).toNat = if 65 ≤ c.toNat ∧ c.toNat ≤ 90 then c.toNat + 32 else c.toNat := by
  unfold asciiLower
  by_cases h : 65 ≤ c.toNat ∧ c.toNat ≤ 90
  · have hvalid : (c.toNat + 32).isValidChar := Or.inl (by omega)
    rw [if_pos (capital_iff.2 h), if_pos h, Char.ofNat, dif_pos hvalid]
    rfl
  · rw [if_neg (mt capital_iff.1 h), if_neg h]

theorem asciiLower_eq_self {c : Char} (h : c.toNat < 65 ∨ 90 < c.toNat) : asciiLower c = c := by
  unfold asciiLower
  rw [if_neg]
  intro hcapital
  have := capital_iff.1 hcapital
  omega

/-- What is in lower case stays as it is. -/
theorem asciiLower_asciiLower (c : Char) : asciiLower (asciiLower c) = asciiLower c := by
  apply asciiLower_eq_self
  rw [toNat_asciiLower]
  split <;> omega

/-- Two characters have one lower case exactly if they are the same letter. -/
theorem asciiLower_eq_iff {c d : Char} : asciiLower c = asciiLower d ↔ SameLetter c d := by
  unfold SameLetter
  rw [← Char.toNat_inj, ← Char.toNat_inj, toNat_asciiLower, toNat_asciiLower, capital_iff,
    capital_iff]
  split <;> split <;> omega

theorem map_asciiLower_eq_iff {ds : List Char} :
    cs.map asciiLower = ds.map asciiLower ↔ List.Forall₂ SameLetter cs ds := by
  calc cs.map asciiLower = ds.map asciiLower
      ↔ List.Forall₂ (fun c d => asciiLower c = asciiLower d) cs ds := by
        rw [← List.forall₂_eq_eq_eq, List.forall₂_map_left_iff, List.forall₂_map_right_iff]
    _ ↔ List.Forall₂ SameLetter cs ds := by simp only [asciiLower_eq_iff]

end SettingStore.Text
