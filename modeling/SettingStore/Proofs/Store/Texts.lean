import Mathlib.Data.List.TakeWhile
import SettingStore.Store.Table.IdList
import SettingStore.Store.Table.QuotedName

set_option autoImplicit false

/-! # Texts between a table and its database

Two texts pass between the table store and its database: the ids of a group, joined by commas,
and the name of an index in a statement. Both are read back as what was written
(`IdList.read?_chars`, `QuotedName.tokens?_dropStatement`), but that a statement ends at a zero
character, so that one with such a name is refused (`QuotedName.dropped?_dropStatement`).
-/

namespace SettingStore

/-! ## Cutting -/

namespace Text

section Cutting

variable {separates : Char → Bool} {segment : List Char}

/-- A text without separators is one segment. -/
theorem segments_eq_singleton (h : ∀ c ∈ segment, separates c = false) :
    segments separates segment = [segment] := by
  induction segment with
  | nil => rfl
  | cons c rest ih =>
      have hc : separates c = false := h c List.mem_cons_self
      rw [segments, ih fun d hd => h d (List.mem_cons_of_mem _ hd)]
      simp [hc]

/-- What stands before the first separator is the first segment. -/
theorem segments_append (h : ∀ c ∈ segment, separates c = false) {separator : Char}
    (hs : separates separator = true) (rest : List Char) :
    segments separates (segment ++ separator :: rest) = segment :: segments separates rest := by
  induction segment with
  | nil =>
      rw [List.nil_append, segments]
      cases hrest : segments separates rest with
      | nil => exact absurd hrest (segments_ne_nil separates rest)
      | cons first others => simp [hs]
  | cons c cs ih =>
      have hc : separates c = false := h c List.mem_cons_self
      rw [List.cons_append, segments, ih fun d hd => h d (List.mem_cons_of_mem _ hd)]
      simp [hc]

end Cutting

/-! ## Numbers -/

/-- A number is written with digits and a minus sign. -/
theorem mem_integerChars {n : Int} {c : Char} (h : c ∈ integerChars n) :
    c = '-' ∨ (48 ≤ c.toNat ∧ c.toNat ≤ 57) := by
  have digit : ∀ {c : Char}, c ∈ Nat.toDigits 10 n.natAbs → 48 ≤ c.toNat ∧ c.toNat ≤ 57 := by
    intro c hc
    have hd : c.isDigit = true := Nat.isDigit_of_mem_toDigits (by decide) (by decide) hc
    rw [Char.isDigit, Bool.and_eq_true, decide_eq_true_eq, decide_eq_true_eq] at hd
    exact ⟨UInt32.le_iff_toNat_le.1 hd.1, UInt32.le_iff_toNat_le.1 hd.2⟩
  rw [integerChars] at h
  split at h
  · rcases List.mem_cons.1 h with h | h
    · exact Or.inl h
    · exact Or.inr (digit h)
  · exact Or.inr (digit h)

theorem isBlank_of_mem_integerChars {n : Int} {c : Char} (h : c ∈ integerChars n) :
    isBlank c = false := by
  rcases mem_integerChars h with rfl | hc
  · decide
  · simp only [isBlank, blankRanges, List.any_cons, List.any_nil, Bool.or_eq_false_iff,
      Bool.and_eq_false_iff, decide_eq_false_iff_not, and_true]
    omega

theorem ne_comma_of_mem_integerChars {n : Int} {c : Char} (h : c ∈ integerChars n) :
    (c == ',') = false := by
  rw [beq_eq_false_iff_ne]
  rintro rfl
  rcases mem_integerChars h with h | h
  · exact absurd h (by decide)
  · exact absurd h (by decide)

theorem trimChars_integerChars (n : Int) : trimChars (integerChars n) = integerChars n :=
  trimChars_eq_self (fun _ hc => isBlank_of_mem_integerChars (List.mem_of_mem_head? hc))
    (fun _ hc => isBlank_of_mem_integerChars (List.mem_of_getLast? hc))

theorem signed?_integerChars {n : Int} (h : Word.Signed n) :
    signed? (integerChars n) = some n := by
  rw [signed?, integer?_integerChars, Option.filter_some, decide_eq_true h, if_pos rfl]

end Text

/-! ## Lists of ids -/

/-- Ids that were joined are read back. -/
theorem IdList.read?_chars {ids : List Int} (hne : ids ≠ []) (h : ∀ id ∈ ids, Word.Signed id) :
    read? (chars ids) = some ids := by
  induction ids with
  | nil => exact absurd rfl hne
  | cons id rest ih =>
      have hid : Text.signed? (Text.trimChars (Text.integerChars id)) = some id := by
        rw [Text.trimChars_integerChars,
          Text.signed?_integerChars (h id List.mem_cons_self)]
      have hcomma : ∀ c ∈ Text.integerChars id, (c == ',') = false :=
        fun _ hc => Text.ne_comma_of_mem_integerChars hc
      cases rest with
      | nil =>
          rw [read?, chars, Text.segments_eq_singleton hcomma, List.mapM_cons, hid]
          rfl
      | cons next others =>
          have hrest := ih (by simp) fun id hmem => h id (List.mem_cons_of_mem _ hmem)
          rw [read?] at hrest
          rw [read?, chars, Text.segments_append hcomma (by decide), List.mapM_cons, hid, hrest]
          · rfl
          · simp

/-! ## Names -/

namespace QuotedName

/-- Between tokens a quote begins a name. -/
theorem tokens?_chars_append (name rest : List Char) :
    tokens? .between (chars name ++ rest) = tokens? (.behindQuote name.reverse) rest := by
  calc tokens? .between (chars name ++ rest)
      = (tokens? (.quoted []) (inside name ++ ['"'] ++ rest)).map ([] ++ ·) := rfl
    _ = tokens? (.quoted []) (inside name ++ '"' :: rest) := by
        rw [List.append_assoc, List.singleton_append]
        exact Option.map_id_apply
    _ = tokens? (.behindQuote name.reverse) rest := by rw [tokens?_inside, List.append_nil]

/-- A written name is one token. -/
theorem tokens?_chars (name : List Char) : tokens? .between (chars name) = some [.name name] := by
  rw [← List.append_nil (chars name), tokens?_chars_append, tokens?, List.reverse_reverse]

/-- The words of the statement are read before what follows them. -/
theorem tokens?_dropWords (rest : List Char) :
    tokens? .between (dropWords.flatMap (· ++ [' ']) ++ rest)
      = (tokens? .between rest).map (dropWords.map Token.word ++ ·) := by
  simp [dropWords, tokens?, begins, isWordChar, isSpace, Function.comp_def, Option.map_map]

/-- The statement that drops an index is made of its words and the name. -/
theorem tokens?_dropStatement (name : String) :
    tokens? .between (dropStatement name) = some (dropWords.map .word ++ [.name name.toList]) := by
  rw [dropStatement, tokens?_dropWords, tokens?_chars]
  rfl

theorem inside_append (before after : List Char) :
    inside (before ++ after) = inside before ++ inside after := by
  induction before with
  | nil => rfl
  | cons c before ih =>
      rw [List.cons_append, inside, inside, ih]
      split <;> rfl

theorem mem_inside {c : Char} {name : List Char} : c ∈ inside name ↔ c ∈ name := by
  induction name with
  | nil => rfl
  | cons d name ih =>
      rw [inside]
      split
      · rename_i hd
        simp [hd, ih]
      · rw [List.mem_cons, List.mem_cons, ih]

/-- Before the name and in its quotes there is no zero character. -/
theorem not_zero_of_mem_dropWords {name : List Char} (h : '\x00' ∉ name) :
    ∀ c ∈ dropWords.flatMap (· ++ [' ']) ++ '"' :: inside name, (c != '\x00') = true := by
  intro c hc
  rw [bne_iff_ne]
  rintro rfl
  rw [List.mem_append, List.mem_cons, mem_inside] at hc
  rcases hc with hwords | hquote | hname
  · exact absurd hwords (by decide)
  · exact absurd hquote (by decide)
  · exact h hname

/-- The database reads the name that the statement was made with, unless there is a zero character
in it; then the statement is cut off within the name, and refused. -/
theorem dropped?_dropStatement (name : String) :
    dropped? (dropStatement name) = if '\x00' ∈ name.toList then none else some name := by
  unfold dropped?
  split_ifs with hzero
  · obtain ⟨start, rest, hsplit, hstart⟩ := List.eq_append_cons_of_mem hzero
    have hread : (dropStatement name).takeWhile (· != '\x00')
        = dropWords.flatMap (· ++ [' ']) ++ '"' :: inside start := by
      have hname : dropStatement name = dropWords.flatMap (· ++ [' ']) ++ '"' :: inside start
          ++ '\x00' :: (inside rest ++ ['"']) := by
        simp [dropStatement, chars, hsplit, inside_append, inside]
      rw [hname, List.takeWhile_append_of_pos (not_zero_of_mem_dropWords hstart)]
      simp
    have htokens : tokens? .between ('"' :: inside start) = none := by
      rw [tokens?]
      exact congrArg _ (tokens?_inside_eq_none [] start)
    rw [hread, tokens?_dropWords, htokens]
    rfl
  · have hread : (dropStatement name).takeWhile (· != '\x00') = dropStatement name := by
      have hname : dropStatement name
          = dropWords.flatMap (· ++ [' ']) ++ '"' :: inside name.toList ++ ['"'] := by
        simp [dropStatement, chars]
      rw [hname, List.takeWhile_append_of_pos (not_zero_of_mem_dropWords hzero)]
      rfl
    rw [hread, tokens?_dropStatement]
    exact congrArg some String.ofList_toList

end QuotedName

end SettingStore
