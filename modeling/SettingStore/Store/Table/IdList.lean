import SettingStore.Text.Blank
import SettingStore.Text.Integer

set_option autoImplicit false

/-! # Lists of ids as text

The database joins the ids of a group of rows to one text, with commas between them. The
reader takes 64-bit numbers between commas, and blanks around a number do not matter.
-/

namespace SettingStore.IdList

/-- Whole numbers with commas between them. -/
def chars : List Int → List Char
  | [] => []
  | [n] => Text.integerChars n
  | n :: rest => Text.integerChars n ++ ',' :: chars rest

/-- The numbers in a text. -/
def read? (cs : List Char) : Option (List Int) :=
  (Text.segments (· == ',') cs).mapM fun part => Text.signed? (Text.trimChars part)

end SettingStore.IdList
