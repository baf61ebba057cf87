set_option autoImplicit false

/-! # The 64-bit ranges

Whole numbers are unbounded integers throughout; where a format or a store admits only
64-bit words, it asks whether a number lies in one of the ranges below.
-/

namespace SettingStore.Word

/-- The least signed 64-bit number. -/
def minSigned : Int := -9223372036854775808

/-- The greatest signed 64-bit number. -/
def maxSigned : Int := 9223372036854775807

/-- The greatest unsigned 64-bit number. -/
def maxUnsigned : Int := 18446744073709551615

/-- The number fits a signed 64-bit word. -/
def Signed (n : Int) : Prop := minSigned ≤ n ∧ n ≤ maxSigned

/-- The number fits a signed or an unsigned 64-bit word. -/
def Fits (n : Int) : Prop := minSigned ≤ n ∧ n ≤ maxUnsigned

instance (n : Int) : Decidable (Signed n) := inferInstanceAs (Decidable (_ ∧ _))

instance (n : Int) : Decidable (Fits n) := inferInstanceAs (Decidable (_ ∧ _))

/-- A signed word fits. -/
theorem Signed.fits {n : Int} (h : Signed n) : Fits n :=
  ⟨h.1, Int.le_trans h.2 (by decide)⟩

end SettingStore.Word
