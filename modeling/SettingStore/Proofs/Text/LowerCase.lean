import SettingStore.Proofs.Text.Spelling
import SettingStore.Proofs.Text.UpperCase

set_option autoImplicit false

/-! # Texts whose lower case is an ASCII word

The lower case of a character beyond ASCII has a character beyond ASCII in it, whatever stands
around it, with one exception: the Kelvin sign becomes the letter k (`lowered_cases`). A word of
ASCII letters other than k is therefore the lower case of nothing but its own spellings in capital
and small ASCII letters (`lowerCase_eq_iff`).
-/

namespace SettingStore.Text

/-- The Kelvin sign, which looks like a capital K. -/
def kelvinSign : Char := '\u212A'

/-! ## Runs -/

namespace CaseRun

/-- The run moves ASCII letters only, or the Kelvin sign, or its images lie beyond ASCII. -/
def foreign (run : CaseRun) : Bool :=
  run.last < 0x80 || (run.first == 0x212A && run.last == 0x212A && run.moved 0x212A == 107) ||
    (0x80 ≤ run.moved run.first && run.moved run.last < 0x110000 && run.avoids 0xD800 0xDFFF)

theorem foreign_lower : CaseTable.lower.runs.all foreign = true := by decide +kernel

end CaseRun

/-! ## Characters -/

namespace CaseTable

variable {c : Char}

/-- The table maps ASCII characters like the mapping of ASCII letters alone. -/
theorem image_lower_of_ascii (h : c.toNat < 0x80) : lower.image c = [asciiLower c] := by
  have hall : ∀ n, n < 0x80 → lower.image (Char.ofNat n) = [asciiLower (Char.ofNat n)] := by
    decide +kernel
  have hc := hall c.toNat h
  rwa [Char.ofNat_toNat] at hc

/-- In each expansion there is a character beyond ASCII. -/
theorem expansions_lower :
    lower.expansions.all (fun e => e.2.any fun code => 0x80 ≤ (Char.ofNat code).toNat) = true := by
  decide +kernel

/-- What a run puts in the place of a character beyond ASCII. -/
theorem moved_cases {run : CaseRun} (hrun : run ∈ lower.runs) (covered : run.covers c.toNat = true)
    (h : 0x80 ≤ c.toNat) :
    (c = kelvinSign ∧ Char.ofNat (run.moved c.toNat) = 'k') ∨
      0x80 ≤ (Char.ofNat (run.moved c.toNat)).toNat := by
  have hforeign := List.all_eq_true.1 CaseRun.foreign_lower run hrun
  have hbounds := CaseRun.moved_bounds covered
  have hrange : run.first ≤ c.toNat ∧ c.toNat ≤ run.last := by
    simp only [CaseRun.covers, Bool.and_eq_true, decide_eq_true_eq] at covered
    exact covered.1
  simp only [CaseRun.foreign, Bool.or_eq_true, Bool.and_eq_true, decide_eq_true_eq,
    beq_iff_eq] at hforeign
  rcases hforeign with (hascii | ⟨⟨hfirst, hlast⟩, hmoved⟩) | ⟨⟨hbeyond, hlast⟩, hsurrogates⟩
  · omega
  · have hcode : c.toNat = 0x212A := by omega
    left
    rw [hcode, hmoved]
    exact ⟨Char.toNat_inj.1 hcode, rfl⟩
  · right
    rw [CaseRun.toNat_ofNat_moved hlast hsurrogates covered]
    omega

/-- What the table puts in the place of a character beyond ASCII. -/
theorem image_lower_cases (h : 0x80 ≤ c.toNat) :
    (c = kelvinSign ∧ lower.image c = ['k']) ∨ ∃ d ∈ lower.image c, 0x80 ≤ d.toNat := by
  rcases image_cases lower c with ⟨codes, hmem, himage⟩ | ⟨run, hmem, hcovered, himage⟩ | himage
  · right
    have hany := List.all_eq_true.1 expansions_lower _ hmem
    obtain ⟨code, hcode, hbeyond⟩ := List.any_eq_true.1 hany
    rw [himage]
    exact ⟨_, List.mem_map_of_mem hcode, of_decide_eq_true hbeyond⟩
  · rw [himage]
    rcases moved_cases hmem hcovered h with ⟨hkelvin, hmoved⟩ | hbeyond
    · rw [hmoved]
      exact Or.inl ⟨hkelvin, rfl⟩
    · exact Or.inr ⟨_, List.mem_singleton_self _, hbeyond⟩
  · rw [himage]
    exact Or.inr ⟨c, List.mem_singleton_self c, h⟩

end CaseTable

/-- What comes into the lower case of a text for one of its characters: the small letter of an
ASCII letter, the letter k for the Kelvin sign, and something beyond ASCII otherwise. -/
theorem lowered_cases (before after : List Char) (c : Char) {image : List Char}
    (himage : image = if c = 'Σ' then [smallSigma before after] else CaseTable.lower.image c) :
    (c.toNat < 0x80 ∧ image = [asciiLower c]) ∨
      (0x80 ≤ c.toNat ∧ (image = ['k'] ∨ ∃ d ∈ image, 0x80 ≤ d.toNat)) := by
  by_cases hsigma : c = 'Σ'
  · -- Both small letters of the capital sigma lie beyond ASCII.
    rw [if_pos hsigma] at himage
    right
    refine ⟨by rw [hsigma]; decide, Or.inr ⟨smallSigma before after, by simp [himage], ?_⟩⟩
    unfold smallSigma
    split <;> decide
  · rw [if_neg hsigma] at himage
    rw [himage]
    by_cases hascii : c.toNat < 0x80
    · exact Or.inl ⟨hascii, CaseTable.image_lower_of_ascii hascii⟩
    · have hbeyond : 0x80 ≤ c.toNat := by omega
      exact Or.inr ⟨hbeyond, (CaseTable.image_lower_cases hbeyond).imp_left And.right⟩

/-! ## Texts -/

/-- A small ASCII letter other than k, or an ASCII character without case. -/
def IsPlainLower (c : Char) : Prop := c.toNat < 0x80 ∧ c ≠ 'k' ∧ asciiLower c = c

instance (c : Char) : Decidable (IsPlainLower c) :=
  inferInstanceAs (Decidable (_ ∧ _ ∧ _))

theorem lowerChars_eq_iff {before cs word : List Char} (plain : ∀ d ∈ word, IsPlainLower d) :
    lowerChars before cs = word ↔ cs.map asciiLower = word := by
  induction cs generalizing before word with
  | nil => exact Iff.rfl
  | cons c rest ih =>
      rw [lowerChars, List.map_cons]
      generalize himage : (if c = 'Σ' then _ else _) = image
      rcases lowered_cases before rest c himage.symm with ⟨hascii, rfl⟩ | ⟨hbeyond, hlost⟩
      · cases word with
        | nil => simp
        | cons d word =>
            have hrest : lowerChars (c :: before) rest = word ↔ rest.map asciiLower = word :=
              ih fun e he => plain e (List.mem_cons_of_mem _ he)
            rw [List.singleton_append, List.cons_eq_cons, List.cons_eq_cons, hrest]
      · -- Neither side is such a word: the one has a character that is not in it, and so has the
        -- other, because no letter beyond ASCII is changed.
        apply iff_of_false
        · rintro rfl
          rcases hlost with rfl | ⟨d, hd, hbeyond'⟩
          · exact (plain 'k' (by simp)).2.1 rfl
          · have := (plain d (List.mem_append_left _ hd)).1
            omega
        · rintro rfl
          have hkept : asciiLower c = c := asciiLower_eq_self (Or.inr (by omega))
          have := (plain (asciiLower c) List.mem_cons_self).1
          rw [hkept] at this
          omega

/-- A word without the letter k is the lower case of exactly its spellings in ASCII letters of
either case. -/
theorem lowerCase_eq_iff {s word : String} (plain : ∀ d ∈ word.toList, IsPlainLower d) :
    lowerCase s = word ↔ SameLetters s word := by
  have hword : word.toList.map asciiLower = word.toList :=
    (List.map_congr_left fun d hd => (plain d hd).2.2).trans (List.map_id _)
  calc lowerCase s = word
      ↔ lowerChars [] s.toList = word.toList := by
        rw [lowerCase, ← String.toList_inj, String.toList_ofList]
    _ ↔ s.toList.map asciiLower = word.toList := lowerChars_eq_iff plain
    _ ↔ s.toList.map asciiLower = word.toList.map asciiLower := by rw [hword]
    _ ↔ SameLetters s word := map_asciiLower_eq_iff

/-- No character beyond ASCII is in a spelling of such a word. -/
theorem SameLetters.toNat_lt {s word : String} (h : SameLetters s word)
    (plain : ∀ d ∈ word.toList, IsPlainLower d) {c : Char} (hc : c ∈ s.toList) :
    c.toNat < 0x80 := by
  have hlower : s.toList.map asciiLower = word.toList := by
    have hword := (lowerCase_eq_iff plain).2 h
    rwa [lowerCase, ← String.toList_inj, String.toList_ofList, lowerChars_eq_iff plain] at hword
  have hmem : asciiLower c ∈ word.toList := by
    rw [← hlower]
    exact List.mem_map_of_mem hc
  have hascii : (asciiLower c).toNat < 0x80 := (plain _ hmem).1
  rw [toNat_asciiLower] at hascii
  split at hascii <;> omega

end SettingStore.Text
