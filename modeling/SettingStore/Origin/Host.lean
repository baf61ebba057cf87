import SettingStore.Origin.Ipv6
import SettingStore.Text.Case

set_option autoImplicit false

/-! # Hosts

The host of an address on the web: a name, an IPv4 address or an IPv6 address in brackets.
A name may have its characters written as percent escapes; it is kept in lower case, and none
of its characters may have a meaning elsewhere in an address. A host whose last label is a
number is an IPv4 address or nothing.

Only names of ASCII characters are modelled. Browsers also take internationalized names, which
they turn into labels that start with `xn--`, and refuse labels with that start which come from
no name. The tables for this are left out: here a name with other characters is refused, and a
label that starts with `xn--` is a label like any other.
-/

namespace SettingStore

inductive Host where
  | name (text : List Char)
  | ipv4 (address : Nat)
  | ipv6 (groups : List Nat)
  deriving DecidableEq, Repr

namespace Host

/-- The text with its percent escapes replaced by the characters they stand for. -/
def unescaped : List Char → List Char
  | '%' :: high :: low :: rest =>
      if Ipv4.isHexDigit high && Ipv4.isHexDigit low then
        Char.ofNat (16 * Ipv4.hexValue high + Ipv4.hexValue low) :: unescaped rest
      else '%' :: unescaped (high :: low :: rest)
  | c :: rest => c :: unescaped rest
  | [] => []

/-- The characters with a meaning elsewhere in an address, which no name may contain. -/
def reservedChars : List Char :=
  ['%', '#', '/', ':', '<', '>', '?', '@', '[', '\\', ']', '^', '|']

/-- A character that a name may contain. -/
def isNameChar (c : Char) : Bool :=
  0x20 < c.toNat && c.toNat < 0x7F && !reservedChars.contains c

/-- The host that a nonempty text denotes. -/
def ofChars? (cs : List Char) : Option Host :=
  if cs.head? == some '[' then
    if cs.getLast? == some ']' then (Ipv6.ofChars? (cs.drop 1).dropLast).map .ipv6 else none
  else
    let name := (unescaped cs).map Text.asciiLower
    -- An escape may stand for a character that no name may contain.
    if name.isEmpty || !name.all isNameChar then none
    else if Ipv4.endsInNumber name then (Ipv4.ofChars? name).map .ipv4
    else some (.name name)

/-- The host as text. -/
def chars : Host → List Char
  | .name text => text
  | .ipv4 address => Ipv4.chars address
  | .ipv6 groups => '[' :: (Ipv6.chars groups ++ [']'])

end Host

end SettingStore
