import SettingStore.Error
import SettingStore.Origin.Host
import SettingStore.Text.Integer

set_option autoImplicit false

/-! # Origins

The origin under which the server is reached: scheme, host and port. An origin is read from
a web address by the rules that browsers follow; what comes after the host and the port does
not count. Its base address leaves out port 80, whatever the scheme.
-/

namespace SettingStore

/-- A scheme, a host and a port. -/
structure Origin where
  scheme : String
  host : String
  port : Nat
  deriving DecidableEq, Repr

namespace Origin

/-- The base address: the scheme, the host, and the port unless it is 80. -/
def baseAddress (o : Origin) : String :=
  if o.port = 80 then o.scheme ++ "://" ++ o.host
  else o.scheme ++ "://" ++ o.host ++ ":" ++ Nat.repr o.port

/-! ## Reading -/

/-- A space or a control below it, which may surround an address. -/
def isPadding (c : Char) : Bool := c.toNat ≤ 0x20

/-- A tab or a line break, which does not count anywhere in an address. -/
def isIgnored (c : Char) : Bool := c == '\t' || c == '\n' || c == '\r'

/-- The address without padding and ignored characters. -/
def cleaned (cs : List Char) : List Char :=
  (Text.dropTrailing isPadding (cs.dropWhile isPadding)).filter (!isIgnored ·)

/-- A slash; a backslash will do as well. -/
def isSlash (c : Char) : Bool := c == '/' || c == '\\'

/-- A character that ends the part of an address with host and port. -/
def endsAuthority (c : Char) : Bool := isSlash c || c == '?' || c == '#'

/-- The default port of a scheme; none for a scheme that has no origin. -/
def defaultPort? (scheme : List Char) : Option Nat :=
  if scheme = "http".toList then some 80
  else if scheme = "https".toList then some 443
  else none

/-- What stands after the last `@`, or everything. -/
def afterUser (cs : List Char) : List Char :=
  ((Text.segments (· == '@') cs).getLast?).getD cs

/-- The host at the start, up to a colon that is not between brackets, and what follows. -/
def spanHost (bracketed : Bool) : List Char → List Char × List Char
  | [] => ([], [])
  | c :: rest =>
      if c = ':' ∧ bracketed = false then ([], c :: rest)
      else
        let inside := if c = '[' then true else if c = ']' then false else bracketed
        let (host, after) := spanHost inside rest
        (c :: host, after)

/-- The port after the host: nothing or a colon alone for the default one, else a number of
16 bits. -/
def port? (default : Nat) : List Char → Option Nat
  | [] | [':'] => some default
  | ':' :: digits => (Text.natural? digits).filter (· ≤ 65535)
  | _ => none

/-- The origin of an address. -/
def ofChars? (cs : List Char) : Option Origin :=
  let address := cleaned cs
  let scheme := (address.takeWhile (· != ':')).map Text.asciiLower
  match defaultPort? scheme, address.dropWhile (· != ':') with
  | some default, _ :: rest =>
      -- Any number of slashes may stand after the colon of the scheme.
      let authority := afterUser ((rest.dropWhile isSlash).takeWhile (!endsAuthority ·))
      let (host, after) := spanHost false authority
      if host.isEmpty then none
      else
        match Host.ofChars? host, port? default after with
        | some host, some port =>
            some ⟨String.ofList scheme, String.ofList host.chars, port⟩
        | _, _ => none
  | _, _ => none

/-- The origin of an address; an address without one is a fault of the configuration. -/
def ofText (s : String) : Except Error Origin :=
  match ofChars? s.toList with
  | some origin => .ok origin
  | none => .error (.configuration ("Invalid public URL: " ++ s))

end Origin

end SettingStore
