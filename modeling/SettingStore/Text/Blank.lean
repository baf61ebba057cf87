set_option autoImplicit false

/-! # Blank characters, trimming and cutting

The blank characters are those with the Unicode property White_Space, 25 in all. Trimming
removes them from both ends of a text, and cutting splits a text at every character of a
given class. The functions on `List Char` carry the content; the ones on `String` only
convert.
-/

namespace SettingStore.Text

/-- The code points with the property White_Space, as closed ranges. -/
def blankRanges : List (Nat × Nat) :=
  [(0x09, 0x0D), (0x20, 0x20), (0x85, 0x85), (0xA0, 0xA0), (0x1680, 0x1680),
   (0x2000, 0x200A), (0x2028, 0x2029), (0x202F, 0x202F), (0x205F, 0x205F), (0x3000, 0x3000)]

/-- A character is blank when it has the property White_Space. -/
def isBlank (c : Char) : Bool :=
  blankRanges.any fun range => range.1 ≤ c.toNat && c.toNat ≤ range.2

/-! ## Trimming -/

/-- Drop the longest suffix whose characters all satisfy `p`. -/
def dropTrailing (p : Char → Bool) (cs : List Char) : List Char :=
  (cs.reverse.dropWhile p).reverse

/-- Drop the blank characters at both ends. -/
def trimChars (cs : List Char) : List Char :=
  dropTrailing isBlank (cs.dropWhile isBlank)

/-- A text without the blank characters at its ends. -/
def trim (s : String) : String := String.ofList (trimChars s.toList)

/-- A text that has lost its leading characters of a class starts with none of them. -/
theorem not_of_head?_dropWhile {p : Char → Bool} {cs : List Char} {c : Char}
    (h : (cs.dropWhile p).head? = some c) : p c = false := by
  have hnot := List.head?_dropWhile_not p cs
  rw [h] at hnot
  exact hnot

/-- A text that has lost its trailing characters of a class ends with none of them. -/
theorem not_of_getLast?_dropTrailing {p : Char → Bool} {cs : List Char} {c : Char}
    (h : (dropTrailing p cs).getLast? = some c) : p c = false := by
  rw [dropTrailing, List.getLast?_reverse] at h
  exact not_of_head?_dropWhile h

/-- Dropping at the end keeps a start of the text. -/
theorem dropTrailing_prefix (p : Char → Bool) (cs : List Char) : dropTrailing p cs <+: cs := by
  have h : cs.reverse.dropWhile p <:+ cs.reverse := List.dropWhile_suffix p
  have hreverse := List.reverse_prefix.2 h
  rwa [List.reverse_reverse] at hreverse

/-- Nothing is dropped from the end of a text that ends with no character of the class. -/
theorem dropTrailing_eq_self {p : Char → Bool} {cs : List Char}
    (h : ∀ c, cs.getLast? = some c → p c = false) : dropTrailing p cs = cs := by
  rw [dropTrailing]
  cases hr : cs.reverse with
  | nil => simpa using hr.symm
  | cons c rest =>
      have hc : p c = false := h c (by rw [← List.head?_reverse, hr]; rfl)
      rw [List.dropWhile_cons_of_neg (by simp [hc]), ← hr, List.reverse_reverse]

/-- A trimmed text starts with no blank. -/
theorem head?_trimChars {cs : List Char} {c : Char} (h : (trimChars cs).head? = some c) :
    isBlank c = false := by
  obtain ⟨dropped, hd⟩ := dropTrailing_prefix isBlank (cs.dropWhile isBlank)
  have hfirst : (cs.dropWhile isBlank).head? = some c := by
    rw [trimChars] at h
    rw [← hd, List.head?_append, h]
    rfl
  exact not_of_head?_dropWhile hfirst

/-- A trimmed text ends with no blank. -/
theorem getLast?_trimChars {cs : List Char} {c : Char} (h : (trimChars cs).getLast? = some c) :
    isBlank c = false :=
  not_of_getLast?_dropTrailing h

/-- Trimming keeps a text that has no blank at its ends. -/
theorem trimChars_eq_self {cs : List Char} (first : ∀ c, cs.head? = some c → isBlank c = false)
    (last : ∀ c, cs.getLast? = some c → isBlank c = false) : trimChars cs = cs := by
  have start : cs.dropWhile isBlank = cs := by
    cases cs with
    | nil => rfl
    | cons c rest => exact List.dropWhile_cons_of_neg (by simp [first c rfl])
  rw [trimChars, start, dropTrailing_eq_self last]

/-- Trimming twice is trimming once. -/
theorem trimChars_trimChars (cs : List Char) : trimChars (trimChars cs) = trimChars cs :=
  trimChars_eq_self (fun _ => head?_trimChars) (fun _ => getLast?_trimChars)

/-! ## Cutting -/

/-- The segments of `cs` between the characters that satisfy `separates`; there is always
one more segment than there are separators. -/
def segments (separates : Char → Bool) : List Char → List (List Char)
  | [] => [[]]
  | c :: rest =>
      match segments separates rest with
      | [] => [[c]]
      | first :: others =>
          if separates c then [] :: first :: others else (c :: first) :: others

/-- The nonempty segments of `cs`, in order. -/
def words (separates : Char → Bool) (cs : List Char) : List (List Char) :=
  (segments separates cs).filter (!·.isEmpty)

/-- Cutting never answers an empty list. -/
theorem segments_ne_nil (separates : Char → Bool) (cs : List Char) :
    segments separates cs ≠ [] := by
  cases cs with
  | nil => simp [segments]
  | cons c rest =>
      cases h : segments separates rest with
      | nil => simp [segments, h]
      | cons first others => cases hc : separates c <;> simp [segments, h, hc]

/-- The characters of a word are none of the separators. -/
theorem not_separates_of_mem_segments {separates : Char → Bool} {cs : List Char} :
    ∀ {word : List Char}, word ∈ segments separates cs → ∀ c ∈ word, separates c = false := by
  induction cs with
  | nil => intro word h c hc; simp [segments] at h; simp [h] at hc
  | cons a rest ih =>
      intro word h c hc
      cases hs : segments separates rest with
      | nil => exact absurd hs (segments_ne_nil separates rest)
      | cons first others =>
          cases ha : separates a with
          | true =>
              simp only [segments, hs, ha, if_true, List.mem_cons] at h
              rcases h with rfl | h
              · simp at hc
              · exact ih (by simpa [hs] using h) c hc
          | false =>
              simp only [segments, hs, ha, Bool.false_eq_true, if_false, List.mem_cons] at h
              rcases h with rfl | h
              · rcases List.mem_cons.1 hc with rfl | hc
                · exact ha
                · exact ih (by simp [hs]) c hc
              · exact ih (by simp [hs, h]) c hc

end SettingStore.Text
