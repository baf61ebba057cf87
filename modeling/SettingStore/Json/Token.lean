import SettingStore.Json.Number

set_option autoImplicit false

/-! # JSON tokens

The scanner reads a text from left to right in one of six modes and answers the tokens of
the text, or nothing when some character fits no token. A string token is kept as it is
written, as a list of characters and of code units given by number: whether code units that
are halves of a pair find their other half is decided later, by `Piece.text?`.
-/

namespace SettingStore.Json

/-- A piece of a string token: a character, or a UTF-16 code unit written as an escape. -/
inductive Piece where
  | char (c : Char)
  | unit (code : Nat)
  deriving DecidableEq, Repr

inductive Token where
  | openArray
  | closeArray
  | openObject
  | closeObject
  | comma
  | colon
  | null
  | bool (b : Bool)
  | number (n : Numeral)
  | string (pieces : List Piece)
  deriving DecidableEq, Repr

/-! ## The text of a string token -/

/-- A code unit that opens a surrogate pair. -/
def isHighUnit (code : Nat) : Bool := 0xD800 ≤ code && code ≤ 0xDBFF

/-- A code unit that closes a surrogate pair. -/
def isLowUnit (code : Nat) : Bool := 0xDC00 ≤ code && code ≤ 0xDFFF

/-- The characters of a string token: two code units that form a pair stand for one
character, and a half without its other half stands for nothing. -/
def Piece.text? : List Piece → Option (List Char)
  | [] => some []
  | .char c :: rest => (text? rest).map (c :: ·)
  | .unit high :: .unit low :: rest =>
      if isHighUnit high then
        if isLowUnit low then
          (text? rest).map
            (Char.ofNat (0x10000 + (high - 0xD800) * 0x400 + (low - 0xDC00)) :: ·)
        else none
      else if isLowUnit high then none
      else (text? (.unit low :: rest)).map (Char.ofNat high :: ·)
  | .unit code :: rest =>
      if isHighUnit code || isLowUnit code then none
      else (text? rest).map (Char.ofNat code :: ·)

/-! ## Scanning -/

/-- Where the scanner stands: between tokens, inside a name of which `letters` are still to
come, inside a number, or inside a string. What was read of the present token is kept in
reverse. -/
inductive Mode where
  | between
  | name (letters : List Char) (token : Token)
  | numeral (read : List Char)
  | string (read : List Piece)
  | escape (read : List Piece)
  | unit (read : List Piece) (missing : Nat) (code : Nat)

/-- The blanks of the format: space, tab, line feed and carriage return. -/
def isSpace (c : Char) : Bool := c == ' ' || c == '\t' || c == '\n' || c == '\r'

/-- A character that can continue a number token. -/
def continuesNumeral (c : Char) : Bool :=
  c.isDigit || c == '.' || c == 'e' || c == 'E' || c == '+' || c == '-'

/-- What a character between tokens begins: perhaps a token of its own, and the mode after
it. -/
def begins (c : Char) : Option (Option Token × Mode) :=
  if isSpace c then some (none, .between)
  else if c.isDigit || c == '-' then some (none, .numeral [c])
  else match c with
    | '[' => some (some .openArray, .between)
    | ']' => some (some .closeArray, .between)
    | '\x7b' => some (some .openObject, .between)
    | '\x7d' => some (some .closeObject, .between)
    | ',' => some (some .comma, .between)
    | ':' => some (some .colon, .between)
    | '"' => some (none, .string [])
    | 'n' => some (none, .name ['u', 'l', 'l'] .null)
    | 't' => some (none, .name ['r', 'u', 'e'] (.bool true))
    | 'f' => some (none, .name ['a', 'l', 's', 'e'] (.bool false))
    | _ => none

/-- The character that a letter after a backslash stands for. -/
def escapedBy : Char → Option Char
  | '"' => some '"'
  | '\\' => some '\\'
  | '/' => some '/'
  | 'b' => some '\x08'
  | 'f' => some '\x0c'
  | 'n' => some '\n'
  | 'r' => some '\r'
  | 't' => some '\t'
  | _ => none

/-- The value of a hexadecimal digit of either case. -/
def hexValue? (c : Char) : Option Nat :=
  if '0' ≤ c ∧ c ≤ '9' then some (c.toNat - '0'.toNat)
  else if 'a' ≤ c ∧ c ≤ 'f' then some (c.toNat - 'a'.toNat + 10)
  else if 'A' ≤ c ∧ c ≤ 'F' then some (c.toNat - 'A'.toNat + 10)
  else none

/-- Put a token, if there is one, before the tokens that follow. -/
def before (token : Option Token) (tokens : Option (List Token)) : Option (List Token) :=
  match token with
  | none => tokens
  | some t => tokens.map (t :: ·)

/-- The tokens of a text, from a given mode on. -/
def scan : Mode → List Char → Option (List Token)
  | .between, [] => some []
  | .numeral read, [] => (Numeral.ofChars? read.reverse).map fun n => [.number n]
  | _, [] => none
  | .between, c :: rest =>
      match begins c with
      | none => none
      | some (token, mode) => before token (scan mode rest)
  | .name letters token, c :: rest =>
      match letters with
      | [] => none
      | letter :: others =>
          if c ≠ letter then none
          else if others.isEmpty then before (some token) (scan .between rest)
          else scan (.name others token) rest
  | .numeral read, c :: rest =>
      if continuesNumeral c then scan (.numeral (c :: read)) rest
      else
        -- The character ends the number and begins what comes next.
        match Numeral.ofChars? read.reverse, begins c with
        | some n, some (token, mode) => before (some (.number n)) (before token (scan mode rest))
        | _, _ => none
  | .string read, c :: rest =>
      if c = '"' then before (some (.string read.reverse)) (scan .between rest)
      else if c = '\\' then scan (.escape read) rest
      else if c.toNat < 0x20 then none
      else scan (.string (.char c :: read)) rest
  | .escape read, c :: rest =>
      if c = 'u' then scan (.unit read 3 0) rest
      else
        match escapedBy c with
        | none => none
        | some e => scan (.string (.char e :: read)) rest
  | .unit read missing code, c :: rest =>
      match hexValue? c with
      | none => none
      | some digit =>
          match missing with
          | 0 => scan (.string (.unit (16 * code + digit) :: read)) rest
          | more + 1 => scan (.unit read more (16 * code + digit)) rest

/-- The tokens of a text. -/
def tokens? (cs : List Char) : Option (List Token) := scan .between cs

end SettingStore.Json
