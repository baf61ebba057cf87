import SettingStore.Text.CaseTable
import SettingStore.Text.WordEnd

set_option autoImplicit false

/-! # Upper and lower case

A text is mapped character by character by one of the tables of `CaseTable`. Only one image
depends on the neighbours of its character: a capital sigma at the end of a word becomes the
final small sigma.
-/

namespace SettingStore.Text

/-- The run moves the code point `n`. -/
def CaseRun.covers (run : CaseRun) (n : Nat) : Bool :=
  run.first ≤ n && n ≤ run.last && (n - run.first) % run.step == 0

/-- Where the run moves `n`. -/
def CaseRun.moved (run : CaseRun) (n : Nat) : Nat := (n + run.shift).toNat

/-- The characters that a table puts in the place of `c`. -/
def CaseTable.image (table : CaseTable) (c : Char) : List Char :=
  match table.expansions.lookup c.toNat with
  | some codes => codes.map Char.ofNat
  | none =>
      match table.runs.find? (·.covers c.toNat) with
      | some run => [Char.ofNat (run.moved c.toNat)]
      | none => [c]

/-- The text in upper case. -/
def upperCase (s : String) : String := String.ofList (s.toList.flatMap CaseTable.upper.image)

/-- The first character that is not case-ignorable is cased. -/
def beginsCased (cs : List Char) : Bool :=
  match cs.dropWhile isCaseIgnorable with
  | [] => false
  | c :: _ => isCased c

/-- The small letter of a capital sigma that stands between two texts, of which the one before it
is given from its end. -/
def smallSigma (before after : List Char) : Char :=
  if beginsCased before && !beginsCased after then 'ς' else 'σ'

/-- The characters in lower case, after those that stand before them, given from their end. -/
def lowerChars (before : List Char) : List Char → List Char
  | [] => []
  | c :: rest =>
      (if c = 'Σ' then [smallSigma before rest] else CaseTable.lower.image c) ++
        lowerChars (c :: before) rest

/-- The text in lower case. -/
def lowerCase (s : String) : String := String.ofList (lowerChars [] s.toList)

/-- A capital ASCII letter becomes its small letter; every other character is kept. -/
def asciiLower (c : Char) : Char :=
  if 'A' ≤ c ∧ c ≤ 'Z' then Char.ofNat (c.toNat + 32) else c

/-- The text with its ASCII letters in lower case. -/
def asciiLowerCase (s : String) : String := String.ofList (s.toList.map asciiLower)

end SettingStore.Text
