import SettingStore.Json.Token
import SettingStore.Proofs.Text.Spelling

set_option autoImplicit false

/-! # Numbers and their tokens

A whole number that fits a word reads back from its text (`Number.readsBack_int`). Of a
binary64 number this is nowhere proved, so it is stated of one number at a time
(`Number.ReadsBack`). Whatever is read as a number token consists of characters that the
scanner takes for parts of a number (`Numeral.continues_of_ofChars?`).
-/

namespace SettingStore

/-! ## Digits -/

namespace Text

/-- Only zero is written with a zero at the start. -/
theorem head?_toDigits {n : Nat} (h : 0 < n) : (Nat.toDigits 10 n).head? ≠ some '0' := by
  induction n using Nat.strongRecOn with
  | ind n ih =>
      rw [Nat.toDigits_eq_if (by decide)]
      split
      · rename_i hlt
        rw [List.head?_cons]
        have hdigit : ∀ k, k < 10 → 0 < k → some (Nat.digitChar k) ≠ some '0' := by decide
        exact hdigit n hlt h
      · rename_i hge
        have hne : (Nat.toDigits 10 (n / 10)).head? ≠ none := by
          rw [Ne, List.head?_eq_none_iff]
          exact Nat.toDigits_ne_nil
        rw [List.head?_append]
        cases hhead : (Nat.toDigits 10 (n / 10)).head? with
        | none => exact absurd hhead hne
        | some c =>
            have := ih (n / 10) (by omega) (by omega)
            rw [hhead] at this
            exact this

end Text

/-! ## Tokens -/

namespace Numeral

open Json (continuesNumeral)

theorem continuesNumeral_of_isDigit {c : Char} (h : c.isDigit = true) :
    continuesNumeral c = true := by
  rw [continuesNumeral, h]
  rfl

/-- The characters of a whole number with an optional sign. -/
theorem continues_of_integer? {cs : List Char} {n : Int} (h : Text.integer? cs = some n) :
    ∀ c ∈ cs, continuesNumeral c = true := by
  have digits : ∀ {cs : List Char}, Text.IsDigits cs → ∀ c ∈ cs, continuesNumeral c = true :=
    fun hdigits c hc => continuesNumeral_of_isDigit (hdigits.2 c hc)
  cases Text.integer?_eq_some_iff.1 h with
  | unsigned hdigits => exact digits hdigits
  | plus hdigits | minus hdigits => exact List.forall_mem_cons.2 ⟨rfl, digits hdigits⟩

theorem continues_of_exponent? {cs : List Char} {n : Int} (h : exponent? cs = some n) :
    ∀ c ∈ cs, continuesNumeral c = true := by
  cases cs with
  | nil =>
      intro c hc
      exact absurd hc List.not_mem_nil
  | cons first rest =>
      rw [exponent?] at h
      split at h
      · rename_i hfirst
        intro c hc
        rcases List.mem_cons.1 hc with rfl | hc
        · rcases hfirst with rfl | rfl <;> rfl
        · exact continues_of_integer? h c hc
      · exact absurd h (by simp)

/-- Digits in front of characters that continue a number token do so as well. -/
theorem continues_of_dropWhile {cs : List Char}
    (h : ∀ c ∈ cs.dropWhile Char.isDigit, continuesNumeral c = true) :
    ∀ c ∈ cs, continuesNumeral c = true := by
  intro c hc
  rw [← List.takeWhile_append_dropWhile (p := Char.isDigit) (l := cs), List.mem_append] at hc
  rcases hc with hc | hc
  · exact continuesNumeral_of_isDigit (List.mem_takeWhile_imp hc)
  · exact h c hc

/-- The characters of a number token continue one, and the first is a digit or a minus
sign. -/
theorem continues_of_ofChars? {cs : List Char} {m : Numeral} (h : ofChars? cs = some m) :
    (∃ c rest, cs = c :: rest ∧ (c.isDigit || c == '-') = true) ∧
      ∀ c ∈ cs, continuesNumeral c = true := by
  simp only [ofChars?] at h
  generalize hnegative : (cs.head? == some '-') = negative at h
  generalize hbody : (if negative then cs.drop 1 else cs) = body at h
  generalize htail : body.dropWhile Char.isDigit = tail at h
  generalize hpoint : (tail.head? == some '.') = point at h
  generalize hplaces : (if point then (tail.drop 1).takeWhile Char.isDigit else []) = places at h
  generalize hsuffix : (if point then (tail.drop 1).dropWhile Char.isDigit else tail) = suffix at h
  split at h
  · exact absurd h (by simp)
  · rename_i hwhole
    split at h
    · exact absurd h (by simp)
    · obtain ⟨exponent, hexponent, -⟩ := Option.map_eq_some_iff.1 h
      -- The text after the sign is digits, perhaps a point and digits, and the exponent.
      have htailContinues : ∀ c ∈ tail, continuesNumeral c = true := by
        cases point with
        | false =>
            rw [if_neg (by simp)] at hsuffix
            rw [hsuffix]
            exact continues_of_exponent? hexponent
        | true =>
            rw [if_pos rfl] at hsuffix
            rw [beq_iff_eq, List.head?_eq_some_iff] at hpoint
            obtain ⟨rest, rfl⟩ := hpoint
            intro c hc
            rw [List.drop_one, List.tail_cons] at hsuffix
            rcases List.mem_cons.1 hc with rfl | hc
            · rfl
            · refine continues_of_dropWhile ?_ c hc
              rw [hsuffix]
              exact continues_of_exponent? hexponent
      have hbodyContinues : ∀ c ∈ body, continuesNumeral c = true := by
        apply continues_of_dropWhile
        rw [htail]
        exact htailContinues
      cases negative with
      | true =>
          rw [beq_iff_eq, List.head?_eq_some_iff] at hnegative
          obtain ⟨rest, rfl⟩ := hnegative
          refine ⟨⟨'-', rest, rfl, rfl⟩, fun c hc => ?_⟩
          rcases List.mem_cons.1 hc with rfl | hc
          · rfl
          · exact hbodyContinues c (by rw [← hbody]; exact hc)
      | false =>
          rw [if_neg (by simp)] at hbody
          subst hbody
          refine ⟨?_, hbodyContinues⟩
          cases cs with
          | nil => exact absurd hwhole (by simp)
          | cons first rest =>
              refine ⟨first, rest, rfl, ?_⟩
              cases hfirst : first.isDigit with
              | true => rfl
              | false => simp [hfirst] at hwhole

end Numeral

/-! ## Reading back -/

namespace Number

/-- The number is what its text denotes. -/
def ReadsBack (n : Number) : Prop := (Numeral.ofChars? n.chars).bind ofNumeral? = some n

/-- The token of a whole number: its sign and its digits. -/
theorem ofChars?_integerChars (n : Int) :
    Numeral.ofChars? (Text.integerChars n)
      = some ⟨decide (n < 0), Nat.toDigits 10 n.natAbs, [], 0, true⟩ := by
  have hdigits : ∀ c ∈ Nat.toDigits 10 n.natAbs, c.isDigit = true := fun c hc =>
    Nat.isDigit_of_mem_toDigits (by decide) (by decide) hc
  have htake : (Nat.toDigits 10 n.natAbs).takeWhile Char.isDigit = Nat.toDigits 10 n.natAbs :=
    List.takeWhile_eq_self_iff.2 hdigits
  have hdrop : (Nat.toDigits 10 n.natAbs).dropWhile Char.isDigit = [] :=
    List.dropWhile_eq_nil_iff.2 hdigits
  have hempty : (Nat.toDigits 10 n.natAbs).isEmpty = false := by
    simp [Nat.toDigits_ne_nil]
  have hzero : ((Nat.toDigits 10 n.natAbs).head? == some '0' &&
      decide (1 < (Nat.toDigits 10 n.natAbs).length)) = false := by
    by_cases h : 0 < n.natAbs
    · rw [beq_eq_false_iff_ne.2 (Text.head?_toDigits h), Bool.false_and]
    · have h0 : n.natAbs = 0 := by omega
      rw [h0]
      rfl
  have hhead : n < 0 ∨ ((Nat.toDigits 10 n.natAbs).head? == some '-') = false := by
    refine Or.inr (beq_eq_false_iff_ne.2 fun h => ?_)
    have := hdigits '-' (List.mem_of_mem_head? h)
    exact absurd this (by decide)
  by_cases hneg : n < 0
  · simp [Numeral.ofChars?, Text.integerChars, hneg, htake, hdrop, hempty, hzero,
      Numeral.exponent?]
  · have hminus := hhead.resolve_left hneg
    simp [Numeral.ofChars?, Text.integerChars, hneg, htake, hdrop, hempty, hzero, hminus,
      Numeral.exponent?]

/-- A whole number that fits a word reads back. -/
theorem readsBack_int {n : Int} (h : Word.Fits n) : ReadsBack (.int n) := by
  have hsigned :
      Numeral.signedWhole ⟨decide (n < 0), Nat.toDigits 10 n.natAbs, [], 0, true⟩ = n := by
    rw [Numeral.signedWhole]
    dsimp only
    rw [Nat.ofDigitChars_toDigits (by decide) (by decide)]
    by_cases hneg : n < 0
    · rw [decide_eq_true hneg, if_pos rfl]
      omega
    · rw [decide_eq_false hneg, if_neg (by simp)]
      omega
  have hword : Numeral.isWord ⟨decide (n < 0), Nat.toDigits 10 n.natAbs, [], 0, true⟩ = true := by
    rw [Numeral.isWord, hsigned, decide_eq_true h]
    by_cases hneg : n < 0
    · have hne : (n == 0) = false := beq_eq_false_iff_ne.2 (by omega)
      rw [hne, Bool.and_false]
      rfl
    · rw [decide_eq_false hneg]
      rfl
  rw [ReadsBack, chars, ofChars?_integerChars, Option.bind_some, ofNumeral?, if_pos hword, hsigned]

end Number

end SettingStore
