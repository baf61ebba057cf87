import SettingStore.Binary64.Reading
import SettingStore.Binary64.Shortest
import SettingStore.Text.Integer
import SettingStore.Word

set_option autoImplicit false

/-! # JSON numbers

A number is either a whole number that fits a 64-bit word, signed or unsigned, or a finite
binary64 number. The two kinds stay apart: a token with a point or an exponent is always a
binary64 number, and so are the tokens without one that no word can hold, and minus zero.

A `Numeral` is a number token as it is written, before it is decided what it denotes; every
numeral of the grammar has one, also those that are too large to denote anything.
-/

namespace SettingStore

/-- A number: a whole one within a 64-bit word, or a finite binary64 one. -/
inductive Number where
  | int (value : Int)
  | float (value : Binary64)
  deriving DecidableEq, Repr

/-- A number token: its sign, the digits before and after the point, and the power of ten.
It is `plain` when it has neither a point nor an exponent. -/
structure Numeral where
  negative : Bool
  whole : List Char
  places : List Char
  exponent : Int
  plain : Bool
  deriving DecidableEq, Repr

namespace Numeral

/-- The power of ten at the end of a number token. -/
def exponent? : List Char → Option Int
  | [] => some 0
  | c :: rest => if c = 'e' ∨ c = 'E' then Text.integer? rest else none

/-- A number token: an optional minus sign, digits without a needless leading zero, an
optional point with at least one digit after it, and an optional exponent. -/
def ofChars? (cs : List Char) : Option Numeral :=
  let negative := cs.head? == some '-'
  let body := if negative then cs.drop 1 else cs
  let whole := body.takeWhile Char.isDigit
  let tail := body.dropWhile Char.isDigit
  if whole.isEmpty || (whole.head? == some '0' && 1 < whole.length) then none
  else
    let point := tail.head? == some '.'
    let places := if point then (tail.drop 1).takeWhile Char.isDigit else []
    let suffix := if point then (tail.drop 1).dropWhile Char.isDigit else tail
    if point && places.isEmpty then none
    else
      (exponent? suffix).map fun exponent =>
        { negative, whole, places, exponent, plain := !point && suffix.isEmpty }

/-- The digits before the point as a whole number, with the sign. -/
def signedWhole (n : Numeral) : Int :=
  let magnitude : Int := Nat.ofDigitChars 10 n.whole 0
  if n.negative then -magnitude else magnitude

/-- The token denotes a whole number within a word; minus zero does not. -/
def isWord (n : Numeral) : Bool :=
  n.plain && decide (Word.Fits n.signedWhole) && !(n.negative && n.signedWhole == 0)

end Numeral

namespace Number

/-- The number that a token denotes; none when it is beyond the finite numbers. -/
def ofNumeral? (n : Numeral) : Option Number :=
  if n.isWord then some (.int n.signedWhole)
  else (Binary64.ofDigits? n.negative n.whole n.places n.exponent).map .float

/-- The number as a whole number in the signed 64-bit range, if it is one; a binary64
number never is, whatever its value. -/
def signed? : Number → Option Int
  | .int n => if Word.Signed n then some n else none
  | .float _ => none

/-- The number is zero. -/
def isZero : Number → Bool
  | .int n => n == 0
  | .float x => x.isZero

/-- The number as text. -/
def chars : Number → List Char
  | .int n => Text.integerChars n
  | .float x => x.chars

end Number

end SettingStore
