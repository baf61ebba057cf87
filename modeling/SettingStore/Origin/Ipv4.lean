import SettingStore.Text.Blank

set_option autoImplicit false

/-! # IPv4 addresses

An address is written as four decimal numbers between points. It is read from one to four
numbers, each in decimal, in octal after a leading zero or in hexadecimal after `0x`, where
the last number fills all the bytes that are left; a point at the end does not count.
-/

namespace SettingStore.Ipv4

/-- A hexadecimal digit of either case. -/
def isHexDigit (c : Char) : Bool :=
  c.isDigit || ('a' ≤ c && c ≤ 'f') || ('A' ≤ c && c ≤ 'F')

/-- The value of a hexadecimal digit. -/
def hexValue (c : Char) : Nat :=
  if c.isDigit then c.toNat - '0'.toNat
  else if 'a' ≤ c then c.toNat - 'a'.toNat + 10
  else c.toNat - 'A'.toNat + 10

/-- The value of digits in a base. -/
def valueIn (base : Nat) (digits : List Char) : Nat :=
  digits.foldl (fun n c => base * n + hexValue c) 0

/-- A number: decimal, octal after a leading zero, or hexadecimal after `0x`. Nothing after
the mark of the base is zero. -/
def number? : List Char → Option Nat
  | [] => none
  | '0' :: 'x' :: digits | '0' :: 'X' :: digits =>
      if digits.all isHexDigit then some (valueIn 16 digits) else none
  | '0' :: d :: digits =>
      if (d :: digits).all (fun c => '0' ≤ c && c ≤ '7') then some (valueIn 8 (d :: digits))
      else none
  | digits => if digits.all Char.isDigit then some (valueIn 10 digits) else none

/-- The parts between the points, without an empty last part. -/
def parts (cs : List Char) : List (List Char) :=
  let all := Text.segments (· == '.') cs
  if 1 < all.length && all.getLast? == some [] then all.dropLast else all

/-- The last part is a number, or digits only; such a host is an address or nothing. -/
def endsInNumber (cs : List Char) : Bool :=
  match (parts cs).getLast? with
  | none => false
  | some last => (!last.isEmpty && last.all Char.isDigit) || (number? last).isSome

/-- The address of the numbers `numbers` and a last one that fills the bytes left over. -/
def assemble? (numbers : List Nat) (last : Nat) : Option Nat :=
  if 3 < numbers.length then none
  else if numbers.any (255 < ·) then none
  else
    let room := Nat.pow 256 (4 - numbers.length)
    if room ≤ last then none
    else some ((numbers.foldl (fun n part => 256 * n + part) 0) * room + last)

/-- The address that a text denotes. -/
def ofChars? (cs : List Char) : Option Nat :=
  match ((parts cs).mapM number?).map List.reverse with
  | some (last :: numbers) => assemble? numbers.reverse last
  | _ => none

/-- The four bytes in decimal. -/
def chars (address : Nat) : List Char :=
  Nat.toDigits 10 (address / 0x1000000 % 256) ++ '.' ::
    (Nat.toDigits 10 (address / 0x10000 % 256) ++ '.' ::
      (Nat.toDigits 10 (address / 0x100 % 256) ++ '.' :: Nat.toDigits 10 (address % 256)))

end SettingStore.Ipv4
