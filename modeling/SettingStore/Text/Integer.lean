import SettingStore.Word

set_option autoImplicit false

/-! # Whole numbers in decimal

A whole number is read from an optional sign and one or more ASCII digits; leading zeros do
not matter. It is written with the fewest digits and a minus sign when it is negative, and
reading what was written gives the number back.
-/

namespace SettingStore.Text

/-- A natural number from one or more digits. -/
def natural? (cs : List Char) : Option Nat :=
  if cs.isEmpty || !cs.all Char.isDigit then none else some (Nat.ofDigitChars 10 cs 0)

/-- A whole number from an optional sign and one or more digits. -/
def integer? : List Char → Option Int
  | '+' :: digits => (natural? digits).map fun (n : Nat) => (n : Int)
  | '-' :: digits => (natural? digits).map fun (n : Nat) => -(n : Int)
  | digits => (natural? digits).map fun (n : Nat) => (n : Int)

/-- A whole number that fits a signed 64-bit word. -/
def signed? (cs : List Char) : Option Int :=
  (integer? cs).filter fun n => decide (Word.Signed n)

/-- The digits of a whole number, after a minus sign if it is negative. -/
def integerChars (n : Int) : List Char :=
  if n < 0 then '-' :: Nat.toDigits 10 n.natAbs else Nat.toDigits 10 n.natAbs

/-- The written digits of a natural number read back as that number. -/
theorem natural?_toDigits (n : Nat) : natural? (Nat.toDigits 10 n) = some n := by
  have all : (Nat.toDigits 10 n).all Char.isDigit = true :=
    List.all_eq_true.2 fun c hc => Nat.isDigit_of_mem_toDigits (by decide) (by decide) hc
  have nonempty : (Nat.toDigits 10 n).isEmpty = false := by
    simp [Nat.toDigits_ne_nil]
  simp [natural?, all, nonempty, Nat.ofDigitChars_toDigits]

/-- A digit is no sign, so a text that starts with one is read as a natural number. -/
theorem integer?_eq_natural? {c : Char} {cs : List Char} (h : c.isDigit = true) :
    integer? (c :: cs) = (natural? (c :: cs)).map fun (n : Nat) => (n : Int) := by
  unfold integer?
  split
  · rename_i heq; simp only [List.cons.injEq] at heq; rw [heq.1] at h; exact absurd h (by decide)
  · rename_i heq; simp only [List.cons.injEq] at heq; rw [heq.1] at h; exact absurd h (by decide)
  · rfl

/-- Reading inverts writing. -/
theorem integer?_integerChars (n : Int) : integer? (integerChars n) = some n := by
  by_cases hneg : n < 0
  · simp only [integerChars, hneg, if_true, integer?, natural?_toDigits, Option.map_some]
    congr 1
    omega
  · simp only [integerChars, hneg, if_false]
    cases hd : Nat.toDigits 10 n.natAbs with
    | nil => exact absurd hd Nat.toDigits_ne_nil
    | cons c cs =>
        have hc : c.isDigit = true :=
          Nat.isDigit_of_mem_toDigits (b := 10) (n := n.natAbs) (by decide) (by decide)
            (by simp [hd])
        rw [integer?_eq_natural? hc, ← hd, natural?_toDigits, Option.map_some]
        congr 1
        omega

end SettingStore.Text
