import SettingStore.Error
import SettingStore.Json.Text
import SettingStore.Text.Blank
import SettingStore.Text.Case

set_option autoImplicit false

/-! # Users and groups

Setting values may refer to users and groups by an id of 24 hexadecimal digits. An id may be
given in either case and with blanks around it; `EntityId` holds the canonical form only, so
that two ids are the same entity exactly when they are equal.
-/

namespace SettingStore

/-- What an entity is. -/
inductive EntityKind where
  | user
  | group
  deriving DecidableEq, Repr

namespace EntityKind

/-- The name of a kind. -/
def name : EntityKind → String
  | .user => "user"
  | .group => "group"

/-- The kind with a name. -/
def ofName? (s : String) : Option EntityKind :=
  if s = "user" then some .user
  else if s = "group" then some .group
  else none

/-- The name of a kind reads back as the kind. -/
@[simp] theorem ofName?_name (kind : EntityKind) : ofName? kind.name = some kind := by
  cases kind <;> rfl

/-- The kind with a name; an unknown name is a fault of the store. -/
def ofName (s : String) : Except Error EntityKind :=
  match ofName? s with
  | some kind => .ok kind
  | none => .error .database

end EntityKind

/-! ## Ids -/

/-- A decimal digit or one of the small letters from a to f. -/
def isLowerHex (c : Char) : Bool := ('0' ≤ c && c ≤ '9') || ('a' ≤ c && c ≤ 'f')

/-- A digit of an id by its code point. -/
theorem isLowerHex_iff {c : Char} :
    isLowerHex c = true ↔ (48 ≤ c.toNat ∧ c.toNat ≤ 57) ∨ (97 ≤ c.toNat ∧ c.toNat ≤ 102) := by
  simp only [isLowerHex, Bool.or_eq_true, Bool.and_eq_true, decide_eq_true_eq]
  exact Iff.rfl

/-- A digit of an id is not blank. -/
theorem isBlank_of_isLowerHex {c : Char} (h : isLowerHex c = true) : Text.isBlank c = false := by
  rw [isLowerHex_iff] at h
  simp only [Text.isBlank, Text.blankRanges, List.any_cons, List.any_nil, Bool.or_eq_false_iff,
    Bool.and_eq_false_iff, decide_eq_false_iff_not, and_true]
  omega

/-- A digit of an id is its own lower case. -/
theorem asciiLower_of_isLowerHex {c : Char} (h : isLowerHex c = true) : Text.asciiLower c = c := by
  rw [isLowerHex_iff] at h
  refine if_neg fun hupper => ?_
  have hfirst : 65 ≤ c.toNat := hupper.1
  have hlast : c.toNat ≤ 90 := hupper.2
  omega

/-- An id: 24 hexadecimal digits in lower case. -/
structure EntityId where
  text : String
  canonical : text.toList.length = 24 ∧ text.toList.all isLowerHex = true
  deriving DecidableEq, Repr

namespace EntityId

/-- The id that a text denotes, with the blanks around it dropped and its letters in lower
case. -/
def ofText? (s : String) : Option EntityId :=
  let cs := (Text.trimChars s.toList).map Text.asciiLower
  if h : cs.length = 24 ∧ cs.all isLowerHex = true then
    some ⟨String.ofList cs, by rwa [String.toList_ofList]⟩
  else none

/-- An id denotes itself. -/
theorem ofText?_text (id : EntityId) : ofText? id.text = some id := by
  obtain ⟨text, hlength, hall⟩ := id
  have hhex : ∀ c ∈ text.toList, isLowerHex c = true := List.all_eq_true.1 hall
  have htrim : Text.trimChars text.toList = text.toList :=
    Text.trimChars_eq_self (fun c hc => isBlank_of_isLowerHex (hhex c (List.mem_of_mem_head? hc)))
      (fun c hc => isBlank_of_isLowerHex (hhex c (List.mem_of_getLast? hc)))
  have hlower : text.toList.map Text.asciiLower = text.toList :=
    (List.map_congr_left fun c hc => asciiLower_of_isLowerHex (hhex c hc)).trans
      (List.map_id text.toList)
  have hcanonical : text.toList.length = 24 ∧ text.toList.all isLowerHex = true := ⟨hlength, hall⟩
  simp only [ofText?, htrim, hlower, hcanonical, and_self, dif_pos, String.ofList_toList]

/-- The id that a text denotes. -/
def ofText (s : String) : Except Error EntityId :=
  match ofText? s with
  | some id => .ok id
  | none => .error (.invalidId ("Invalid ObjectId: " ++ Text.trim s))

/-- The id that a value denotes: a string, or an object whose member `$oid` is a string. -/
def ofValue (v : Json) : Except Error EntityId :=
  match v with
  | .string s => ofText s
  | .object members =>
      match Json.member? "$oid" members with
      | some (.string s) => ofText s
      | _ => .error (.invalidId ("Invalid ObjectId: " ++ v.text))
  | _ => .error (.invalidId ("Invalid ObjectId: " ++ v.text))

end EntityId

/-- A user or a group. -/
structure Entity where
  kind : EntityKind
  id : EntityId
  name : String
  deriving DecidableEq, Repr

end SettingStore
