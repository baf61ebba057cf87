import SettingStore.Binary64.Basic
import SettingStore.Word

set_option autoImplicit false

/-! # Reading a decimal in steps

A decimal is read in two steps, each of which rounds. The leading digits are taken as long as
they fit an unsigned 64-bit word, and the word is rounded; then it is multiplied or divided
by the number nearest to a power of ten. The result is the number nearest to the decimal
whenever both the word and the power are exact, which covers the decimals with at most 15
digits and small powers; beyond, it may be a neighbour of it.

Powers go up to 10³⁰⁸. A decimal with a greater power is too large, and one with a smaller
power is divided by 10³⁰⁸ first, as often as it takes.
-/

namespace SettingStore.Binary64

/-- Append digits to a number as long as it fits an unsigned word: the number, and how many
digits were left over. -/
def takeDigits (n : Nat) : List Char → Nat × Nat
  | [] => (n, 0)
  | c :: rest =>
      let longer := 10 * n + (c.toNat - '0'.toNat)
      if (longer : Int) ≤ Word.maxUnsigned then takeDigits longer rest
      else (n, (c :: rest).length)

/-- The ordinal of the number nearest to a natural number. -/
def ordinalOfNat (n : Nat) : Nat := ordinalOfRatio n 1

/-- The greatest power of ten that is used in one step. -/
def greatestPower : Nat := 308

/-- The ordinal of the power of ten. -/
def power (exponent : Nat) : Nat := ordinalOfNat (Nat.pow 10 exponent)

/-- The ordinal nearest to a product. -/
def product (a b : Nat) : Nat :=
  ordinalOfRatio (unitsOf a * unitsOf b) (unitsInOne * unitsInOne)

/-- The ordinal nearest to a quotient. -/
def quotient (a b : Nat) : Nat := ordinalOfRatio (unitsOf a) (unitsOf b)

/-- Divide by a power of ten, by the greatest one first as long as that is not enough. -/
def divide (ordinal exponent : Nat) : Nat :=
  if exponent ≤ greatestPower then quotient ordinal (power exponent)
  else if ordinal = 0 then 0
  else divide (quotient ordinal (power greatestPower)) (exponent - greatestPower)
termination_by exponent
decreasing_by
  have : 0 < greatestPower := by decide
  omega

/-- The ordinal of a word times a power of ten. -/
def ordinalInSteps (word : Nat) (exponent : Int) : Nat :=
  let ordinal := ordinalOfNat word
  if exponent < 0 then divide ordinal exponent.natAbs
  else if exponent ≤ greatestPower then product ordinal (power exponent.toNat)
  else if ordinal = 0 then 0
  else infinite

/-- The number read from a sign, the digits before and after the point, and a power of ten;
none if it is too large. -/
def ofDigits? (negative : Bool) (whole places : List Char) (exponent : Int) : Option Binary64 :=
  let (word, dropped) := takeDigits 0 whole
  let (word, unused) := takeDigits word places
  let taken : Int := places.length - unused
  ofOrdinal? negative (ordinalInSteps word (exponent + dropped - taken))

end SettingStore.Binary64
