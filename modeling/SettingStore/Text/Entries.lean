import SettingStore.Text.Blank
import SettingStore.Text.Case

set_option autoImplicit false

/-! # Lists of entries in one text

Some settings are lists written as one text, with commas or blanks between the entries. The
normal form has the entries in the order of their first occurrence, each once, with a comma
and a space between them; a function may be applied to the entries first.
-/

namespace SettingStore.Text

/-- A character between entries. -/
def separatesEntries (c : Char) : Bool := c == ',' || isBlank c

/-- The entries of a text. -/
def entries (s : String) : List String :=
  (words separatesEntries s.toList).map String.ofList

/-- Entries as one text. -/
def joinEntries (entries : List String) : String := String.intercalate ", " entries

/-- The normal form of a list of entries: each entry mapped, later repeats dropped. -/
def normalEntries (map : String → String) (s : String) : String :=
  joinEntries ((entries s).map map).eraseDups

/-- A text without the slashes at its end. -/
def dropSlashes (s : String) : String := String.ofList (dropTrailing (· == '/') s.toList)

end SettingStore.Text
