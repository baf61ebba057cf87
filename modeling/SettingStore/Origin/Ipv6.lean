import SettingStore.Origin.Ipv4

set_option autoImplicit false

/-! # IPv6 addresses

An address is eight groups of 16 bits, written in hexadecimal between colons. A double colon
stands for one or more groups of zero, at most once, and the last two groups may be written
as an IPv4 address. Of the runs of at least two zero groups the longest one, the first if
there are several, is written as a double colon.
-/

namespace SettingStore.Ipv6

/-! ## Reading -/

/-- A group: one to four hexadecimal digits. -/
def group? (cs : List Char) : Option Nat :=
  if cs.isEmpty || 4 < cs.length || !cs.all Ipv4.isHexDigit then none
  else some (Ipv4.valueIn 16 cs)

/-- A decimal byte without a needless leading zero. -/
def byte? (cs : List Char) : Option Nat :=
  if cs.isEmpty || !cs.all Char.isDigit || (1 < cs.length && cs.head? == some '0') then none
  else
    let n := Ipv4.valueIn 10 cs
    if n ≤ 255 then some n else none

/-- The two groups of an address in four decimal bytes. -/
def embedded? (cs : List Char) : Option (List Nat) :=
  match (Text.segments (· == '.') cs).mapM byte? with
  | some [a, b, c, d] => some [256 * a + b, 256 * c + d]
  | _ => none

/-- The groups between colons; the last of them may be an embedded address if `atEnd`. -/
def groups? (atEnd : Bool) : List (List Char) → Option (List Nat)
  | [] => some []
  | [last] =>
      if atEnd && last.contains '.' then embedded? last else (group? last).map ([·])
  | cs :: rest =>
      match group? cs, groups? atEnd rest with
      | some g, some gs => some (g :: gs)
      | _, _ => none

/-- The groups on one side of a double colon, which may be empty. -/
def side? (atEnd : Bool) (cs : List Char) : Option (List Nat) :=
  if cs.isEmpty then some [] else groups? atEnd (Text.segments (· == ':') cs)

/-- What stands before and after the first double colon. -/
def atDoubleColon? : List Char → Option (List Char × List Char)
  | ':' :: ':' :: rest => some ([], rest)
  | c :: rest => (atDoubleColon? rest).map fun sides => (c :: sides.1, sides.2)
  | [] => none

/-- The eight groups that a text denotes. -/
def ofChars? (cs : List Char) : Option (List Nat) :=
  match atDoubleColon? cs with
  | some (before, after) =>
      match side? false before, side? true after with
      | some left, some right =>
          -- The double colon stands for one group at least.
          if 7 < left.length + right.length then none
          else some (left ++ List.replicate (8 - left.length - right.length) 0 ++ right)
      | _, _ => none
  | none =>
      (groups? true (Text.segments (· == ':') cs)).filter fun groups => groups.length == 8

/-! ## Writing -/

/-- The length of the run of zeros at the start. -/
def zeros (groups : List Nat) : Nat := (groups.takeWhile (· == 0)).length

/-- Where the longest run of zeros starts and how long it is, the first of several; `start`
is the place of the first group. -/
def longestRun (start : Nat) : List Nat → Nat × Nat
  | [] => (start, 0)
  | g :: rest =>
      let later := longestRun (start + 1) rest
      let here := zeros (g :: rest)
      if later.2 ≤ here then (start, here) else later

/-- Groups in hexadecimal, between colons. -/
def groupChars : List Nat → List Char
  | [] => []
  | [g] => Nat.toDigits 16 g
  | g :: rest => Nat.toDigits 16 g ++ ':' :: groupChars rest

/-- The address in its short form. -/
def chars (groups : List Nat) : List Char :=
  let run := longestRun 0 groups
  if run.2 < 2 then groupChars groups
  else groupChars (groups.take run.1) ++ ':' :: ':' :: groupChars (groups.drop (run.1 + run.2))

end SettingStore.Ipv6
