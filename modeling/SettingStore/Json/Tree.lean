import SettingStore.Json.Token

set_option autoImplicit false

/-! # JSON syntax trees

The grammar of the format over tokens. A tree keeps what the text says and a value forgets:
the order of the members of an object, repeated members, and numerals and strings that
denote nothing. The parser goes through the tokens once; the containers that are still open
wait on a list of frames, so that nesting has no bound here.
-/

namespace SettingStore.Json

inductive Tree where
  | null
  | bool (b : Bool)
  | number (n : Numeral)
  | string (pieces : List Piece)
  | array (items : List Tree)
  | object (members : List (List Piece × Tree))

/-- An open container: the items read so far in reverse, and for an object the name of the
member whose value comes next. -/
inductive Frame where
  | array (read : List Tree)
  | object (read : List (List Piece × Tree)) (name : List Piece)

mutual

/-- Read a value, inside the open containers `frames`. -/
def readValue (frames : List Frame) : List Token → Option Tree
  | .null :: rest => continueAfter frames .null rest
  | .bool b :: rest => continueAfter frames (.bool b) rest
  | .number n :: rest => continueAfter frames (.number n) rest
  | .string pieces :: rest => continueAfter frames (.string pieces) rest
  | .openArray :: .closeArray :: rest => continueAfter frames (.array []) rest
  | .openArray :: rest => readValue (.array [] :: frames) rest
  | .openObject :: .closeObject :: rest => continueAfter frames (.object []) rest
  | .openObject :: .string name :: .colon :: rest => readValue (.object [] name :: frames) rest
  | _ => none

/-- Go on after a finished value: the outermost value ends the text, and inside a container
either the next item or the end of the container follows. -/
def continueAfter (frames : List Frame) (value : Tree) : List Token → Option Tree
  | [] =>
      match frames with
      | [] => some value
      | _ :: _ => none
  | .comma :: .string name :: .colon :: rest =>
      match frames with
      | .object read last :: outer => readValue (.object ((last, value) :: read) name :: outer) rest
      | _ => none
  | .comma :: rest =>
      match frames with
      | .array read :: outer => readValue (.array (value :: read) :: outer) rest
      | _ => none
  | .closeArray :: rest =>
      match frames with
      | .array read :: outer => continueAfter outer (.array (value :: read).reverse) rest
      | _ => none
  | .closeObject :: rest =>
      match frames with
      | .object read last :: outer =>
          continueAfter outer (.object ((last, value) :: read).reverse) rest
      | _ => none
  | _ => none

end

/-- The tree of a text that is one JSON value, with blanks around it. -/
def Tree.ofText? (text : String) : Option Tree :=
  (tokens? text.toList).bind (readValue [])

end SettingStore.Json
