import SettingStore.Binary64.Basic
import SettingStore.Text.Blank
import SettingStore.Text.Integer

set_option autoImplicit false

/-! # The shortest decimal that reads back

A binary64 number is written with the fewest digits that round to it again. For 1, 2, …
digits the two neighbours of the number on the grid of that many digits are tried; the
first grid with a neighbour that reads back wins, and of two such neighbours the nearer, or
the even one where the number lies halfway.
Every number is found, because on a fine enough grid it is its own neighbour.
-/

namespace SettingStore.Binary64

/-- The power of ten just below or at a positive magnitude of `units` units. -/
def decimalExponent (units : Nat) : Int :=
  (Nat.toDigits 10 (units * Nat.pow 10 324 / unitsInOne)).length - 325

/-- `units` units divided by `10 ^ scale`, as a quotient of natural numbers. -/
def onGrid (units : Nat) (scale : Int) : Nat × Nat :=
  if 0 ≤ scale then (units, unitsInOne * Nat.pow 10 scale.toNat)
  else (units * Nat.pow 10 (-scale).toNat, unitsInOne)

/-- The neighbour with `count + 1` digits that reads back as the ordinal, with its scale;
the nearer one where both do, and of two as near the even one. -/
def withDigits? (ordinal : Nat) (count : Nat) : Option (Nat × Int) :=
  let units := unitsOf ordinal
  let scale := decimalExponent units - count
  let (num, den) := onGrid units scale
  let below := num / den
  let readsBack := fun coefficient => ordinalOfDecimal coefficient scale == ordinal
  match readsBack below, readsBack (below + 1) with
  | true, true => some (halfEven num den, scale)
  | true, false => some (below, scale)
  | false, true => some (below + 1, scale)
  | false, false => none

/-- The coefficient and the scale of the shortest decimal of a magnitude. -/
def shortest (ordinal : Nat) : Nat × Int :=
  ((List.range 1400).findSome? (withDigits? ordinal)).getD (0, 0)

/-! ## Writing

Magnitudes from 10⁻⁵ up to but without 10¹⁶ are written in full, with at least one place
after the point; the others as a first digit, the remaining digits after a point if there
are any, and an exponent that always has a sign. -/

/-- The digits with a decimal point after `places` of them, `places` at least one. -/
def pointAfter (places : Nat) (digits : List Char) : List Char :=
  if digits.length ≤ places then
    digits ++ List.replicate (places - digits.length) '0' ++ ['.', '0']
  else digits.take places ++ '.' :: digits.drop places

/-- A first digit, the other digits after a point, and an exponent. -/
def scientific (digits : List Char) (exponent : Int) : List Char :=
  let mantissa := match digits with
    | first :: second :: others => first :: '.' :: second :: others
    | short => short
  let sign := if exponent < 0 then '-' else '+'
  mantissa ++ 'e' :: sign :: Nat.toDigits 10 exponent.natAbs

/-- A positive decimal in the notation that its size asks for. -/
def decimalChars (coefficient : Nat) (scale : Int) : List Char :=
  let all := Nat.toDigits 10 coefficient
  let digits := Text.dropTrailing (· == '0') all
  let exponent : Int := scale + (all.length - 1 : Nat)
  if 0 ≤ exponent ∧ exponent < 16 then pointAfter (exponent.toNat + 1) digits
  else if -5 ≤ exponent ∧ exponent < 0 then
    '0' :: '.' :: (List.replicate (-exponent - 1).toNat '0' ++ digits)
  else scientific digits exponent

/-- The number in decimal. -/
def chars (x : Binary64) : List Char :=
  let magnitude :=
    if x.isZero then ['0', '.', '0']
    else
      let (coefficient, scale) := shortest x.ordinal
      decimalChars coefficient scale
  if x.negative then '-' :: magnitude else magnitude

end SettingStore.Binary64
