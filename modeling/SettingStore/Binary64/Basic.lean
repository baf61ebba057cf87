set_option autoImplicit false

/-! # Finite binary64 numbers

The finite magnitudes of the IEEE 754 format binary64 are counted from zero up by their
*ordinal*, which is also their bit pattern. All magnitudes are whole multiples of the
smallest positive one, 2⁻¹⁰⁷⁴; `Binary64.units` is that multiple. Below 2⁵³ the ordinal is
the multiple itself; above, each block of 2⁵² ordinals doubles the distance between
neighbours.

Rounding goes the same way in exact natural-number arithmetic: `ordinalOfRatio` finds the
ordinal nearest to a quotient, a half going to the even ordinal.
-/

namespace SettingStore

/-- The number of ordinals in a block, 2⁵². -/
def Binary64.block : Nat := 4503599627370496

/-- The number of units in one, 2¹⁰⁷⁴. -/
def Binary64.unitsInOne : Nat := Nat.pow 2 1074

/-- The ordinal beyond the finite ones. -/
def Binary64.infinite : Nat := 2047 * block

/-- A finite binary64 number: its sign and the ordinal of its magnitude. -/
structure Binary64 where
  negative : Bool
  ordinal : Nat
  finite : ordinal < Binary64.infinite
  deriving DecidableEq, Repr

namespace Binary64

/-- The magnitude with the given ordinal as a multiple of 2⁻¹⁰⁷⁴. -/
def unitsOf (ordinal : Nat) : Nat :=
  if ordinal < block then ordinal
  else (block + ordinal % block) * Nat.pow 2 (ordinal / block - 1)

/-- The magnitude as a multiple of 2⁻¹⁰⁷⁴. -/
def units (x : Binary64) : Nat := unitsOf x.ordinal

/-- The number is zero, with either sign. -/
def isZero (x : Binary64) : Bool := x.ordinal == 0

/-- The whole part, toward zero. -/
def whole (x : Binary64) : Int :=
  let magnitude : Int := (x.units / unitsInOne : Nat)
  if x.negative then -magnitude else magnitude

/-! ## Rounding -/

/-- The whole number nearest to `num / den`, a half going to the even neighbour. -/
def halfEven (num den : Nat) : Nat :=
  let quotient := num / den
  let rest := num % den
  if den < 2 * rest ∨ (2 * rest = den ∧ quotient % 2 = 1) then quotient + 1 else quotient

/-- The ordinal of the magnitude nearest to `num / den`, a half going to the even ordinal.
The number of units is cut to 53 leading bits; rounding up to 2⁵³ moves on to the next block
by itself. -/
def ordinalOfRatio (num den : Nat) : Nat :=
  let scaled := num * unitsInOne
  -- Below 53 bits the shift is zero and every unit counts.
  let shift := (scaled / den).log2 - 52
  halfEven scaled (den * Nat.pow 2 shift) + shift * block

/-- The ordinal nearest to `coefficient * 10 ^ scale`. From 10³⁰⁹ on every magnitude is
beyond the finite ones, and below 2⁻¹⁰⁷⁵ every magnitude rounds to zero; both are told from
the exponent before a power of ten is computed. -/
def ordinalOfDecimal (coefficient : Nat) (scale : Int) : Nat :=
  if coefficient = 0 then 0
  else if 308 < scale then infinite
  else if 0 ≤ scale then ordinalOfRatio (coefficient * Nat.pow 10 scale.toNat) 1
  else if coefficient.log2 + 400 < (-scale).toNat then 0
  else ordinalOfRatio coefficient (Nat.pow 10 (-scale).toNat)

/-- The number with a sign and an ordinal, if it is finite. -/
def ofOrdinal? (negative : Bool) (ordinal : Nat) : Option Binary64 :=
  if h : ordinal < infinite then some ⟨negative, ordinal, h⟩ else none

end Binary64

end SettingStore
