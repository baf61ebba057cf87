import SettingStore.Json.Basic
import SettingStore.Json.Tree

set_option autoImplicit false

/-! # JSON texts

Writing is compact, without blanks, and escapes a quote, a backslash and the controls below
the space. Reading accepts every JSON text whose containers do not stand deeper than a given
bound, whose strings have no half of a surrogate pair alone and whose numbers are finite; of
members with one name the last one counts.
-/

namespace SettingStore.Json

/-! ## Writing -/

/-- A lower-case hexadecimal digit. -/
def hexDigit (n : Nat) : Char := Nat.digitChar n

/-- One character inside the quotes of a string. -/
def stringChar (c : Char) : List Char :=
  if c = '"' then ['\\', '"']
  else if c = '\\' then ['\\', '\\']
  else if c = '\x08' then ['\\', 'b']
  else if c = '\x0c' then ['\\', 'f']
  else if c = '\n' then ['\\', 'n']
  else if c = '\r' then ['\\', 'r']
  else if c = '\t' then ['\\', 't']
  else if c.toNat < 0x20 then
    ['\\', 'u', '0', '0', hexDigit (c.toNat / 16), hexDigit (c.toNat % 16)]
  else [c]

/-- A string in quotes. -/
def stringChars (s : String) : List Char :=
  '"' :: (s.toList.flatMap stringChar ++ ['"'])

mutual

/-- The compact text of a value, as characters. -/
def chars : Json → List Char
  | .null => ['n', 'u', 'l', 'l']
  | .bool true => ['t', 'r', 'u', 'e']
  | .bool false => ['f', 'a', 'l', 's', 'e']
  | .number n => n.chars
  | .string s => stringChars s
  | .array [] => ['[', ']']
  | .array (v :: rest) => '[' :: (chars v ++ itemChars rest ++ [']'])
  | .object [] => ['\x7b', '\x7d']
  | .object ((name, v) :: rest) =>
      '\x7b' :: (stringChars name ++ ':' :: (chars v ++ memberChars rest ++ ['\x7d']))

/-- The items after the first one, each after a comma. -/
def itemChars : List Json → List Char
  | [] => []
  | v :: rest => ',' :: (chars v ++ itemChars rest)

/-- The members after the first one, each after a comma. -/
def memberChars : List (String × Json) → List Char
  | [] => []
  | (name, v) :: rest => ',' :: (stringChars name ++ ':' :: (chars v ++ memberChars rest))

end

/-- The compact text of a value. -/
def text (v : Json) : String := String.ofList v.chars

/-! ## Reading -/

mutual

/-- The value of a tree whose containers stand at most `depth` deep. -/
def ofTree? (depth : Nat) : Tree → Option Json
  | .null => some .null
  | .bool b => some (.bool b)
  | .number n => (Number.ofNumeral? n).map .number
  | .string pieces => (Piece.text? pieces).map fun cs => .string (String.ofList cs)
  | .array items => if depth = 0 then none else (ofItems? (depth - 1) items).map .array
  | .object members =>
      if depth = 0 then none else (ofMembers? (depth - 1) [] members).map .object

/-- The values of the items of an array. -/
def ofItems? (depth : Nat) : List Tree → Option (List Json)
  | [] => some []
  | t :: rest =>
      match ofTree? depth t, ofItems? depth rest with
      | some v, some vs => some (v :: vs)
      | _, _ => none

/-- The members of an object, added in turn to those read before. -/
def ofMembers? (depth : Nat) (read : List (String × Json)) :
    List (List Piece × Tree) → Option (List (String × Json))
  | [] => some read
  | (name, t) :: rest =>
      match Piece.text? name, ofTree? depth t with
      | some cs, some v => ofMembers? depth (setMember (String.ofList cs) v read) rest
      | _, _ => none

end

/-- How deep the containers of a text may stand. -/
def maxDepth : Nat := 127

/-- The value of a text whose containers stand at most `depth` deep. -/
def ofTextWithin? (depth : Nat) (text : String) : Option Json :=
  (Tree.ofText? text).bind (ofTree? depth)

/-- The value of a text. -/
def ofText? (text : String) : Option Json := ofTextWithin? maxDepth text

end SettingStore.Json
