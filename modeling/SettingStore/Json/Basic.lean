import SettingStore.Json.Number

set_option autoImplicit false

/-! # JSON values

Setting values are JSON values. The members of an object are kept in the order of their
names, by code point, and no name occurs twice; `Json.Canonical` states this together with
the range of whole numbers. Every value that is read from a text, and every value the
library builds, is canonical.
-/

namespace SettingStore

inductive Json where
  | null
  | bool (b : Bool)
  | number (n : Number)
  | string (s : String)
  | array (items : List Json)
  | object (members : List (String × Json))
  deriving Repr, Inhabited

namespace Json

/-! ## Equality is decidable -/

mutual

/-- Equality of values. -/
def decEq : (v w : Json) → Decidable (v = w)
  | .null, .null => isTrue rfl
  | .bool a, .bool b => decidable_of_iff (a = b) (by simp)
  | .number a, .number b => decidable_of_iff (a = b) (by simp)
  | .string a, .string b => decidable_of_iff (a = b) (by simp)
  | .array a, .array b =>
      match decEqList a b with
      | isTrue h => isTrue (by simp [h])
      | isFalse h => isFalse (by simp [h])
  | .object a, .object b =>
      match decEqMembers a b with
      | isTrue h => isTrue (by simp [h])
      | isFalse h => isFalse (by simp [h])
  | .null, .bool _ | .null, .number _ | .null, .string _ | .null, .array _ | .null, .object _
  | .bool _, .null | .bool _, .number _ | .bool _, .string _ | .bool _, .array _
  | .bool _, .object _ | .number _, .null | .number _, .bool _ | .number _, .string _
  | .number _, .array _ | .number _, .object _ | .string _, .null | .string _, .bool _
  | .string _, .number _ | .string _, .array _ | .string _, .object _ | .array _, .null
  | .array _, .bool _ | .array _, .number _ | .array _, .string _ | .array _, .object _
  | .object _, .null | .object _, .bool _ | .object _, .number _ | .object _, .string _
  | .object _, .array _ => isFalse (by simp)

/-- Equality of item lists. -/
def decEqList : (v w : List Json) → Decidable (v = w)
  | [], [] => isTrue rfl
  | [], _ :: _ => isFalse (by simp)
  | _ :: _, [] => isFalse (by simp)
  | a :: v, b :: w =>
      match decEq a b with
      | isFalse h => isFalse (by simp [h])
      | isTrue h =>
          match decEqList v w with
          | isTrue h' => isTrue (by simp [h, h'])
          | isFalse h' => isFalse (by simp [h'])

/-- Equality of member lists. -/
def decEqMembers : (v w : List (String × Json)) → Decidable (v = w)
  | [], [] => isTrue rfl
  | [], _ :: _ => isFalse (by simp)
  | _ :: _, [] => isFalse (by simp)
  | (name, a) :: v, (name', b) :: w =>
      if hname : name = name' then
        match decEq a b with
        | isFalse h => isFalse (by simp [h])
        | isTrue h =>
            match decEqMembers v w with
            | isTrue h' => isTrue (by simp [hname, h, h'])
            | isFalse h' => isFalse (by simp [h'])
      else isFalse (by simp [hname])

end

instance : DecidableEq Json := decEq

/-! ## Members of an object -/

/-- The value of the member `name`. -/
def member? (name : String) (members : List (String × Json)) : Option Json :=
  members.lookup name

/-- Set the member `name`: an existing one gets the new value, a new one is put in order. -/
def setMember (name : String) (value : Json) : List (String × Json) → List (String × Json)
  | [] => [(name, value)]
  | (other, v) :: rest =>
      if name = other then (name, value) :: rest
      else if name < other then (name, value) :: (other, v) :: rest
      else (other, v) :: setMember name value rest

/-- A member that was set has the new value. -/
theorem member?_setMember_self (name : String) (value : Json) (members : List (String × Json)) :
    member? name (setMember name value members) = some value := by
  induction members with
  | nil => simp [member?, setMember]
  | cons m rest ih =>
      obtain ⟨other, v⟩ := m
      rw [setMember]
      split
      · simp [member?]
      · rename_i hne
        split
        · simp [member?]
        · rw [member?, List.lookup_cons, beq_eq_false_iff_ne.2 hne]
          exact ih

/-- Setting a member leaves the others as they are. -/
theorem member?_setMember_of_ne {name other : String} (h : other ≠ name) (value : Json)
    (members : List (String × Json)) :
    member? other (setMember name value members) = member? other members := by
  induction members with
  | nil => simp [member?, setMember, List.lookup_cons, beq_eq_false_iff_ne.2 h]
  | cons m rest ih =>
      obtain ⟨first, v⟩ := m
      rw [setMember]
      split
      · rename_i he
        rw [member?, member?, List.lookup_cons, List.lookup_cons, ← he,
          beq_eq_false_iff_ne.2 h]
      · split
        · rw [member?, List.lookup_cons, beq_eq_false_iff_ne.2 h]
          rfl
        · rw [member?, member?, List.lookup_cons, List.lookup_cons]
          cases other == first with
          | true => rfl
          | false => exact ih

/-! ## Depth and canonical form -/

mutual

/-- How many arrays and objects stand inside one another. -/
def depth : Json → Nat
  | .array items => depthList items + 1
  | .object members => depthMembers members + 1
  | _ => 0

/-- The greatest depth of an item. -/
def depthList : List Json → Nat
  | [] => 0
  | v :: rest => max v.depth (depthList rest)

/-- The greatest depth of a member's value. -/
def depthMembers : List (String × Json) → Nat
  | [] => 0
  | (_, v) :: rest => max v.depth (depthMembers rest)

end

mutual

/-- Whole numbers fit a 64-bit word, and the member names of every object increase. -/
def Canonical : Json → Prop
  | .number (.int n) => Word.Fits n
  | .array items => CanonicalList items
  | .object members => members.Pairwise (·.1 < ·.1) ∧ CanonicalMembers members
  | _ => True

/-- Every item is canonical. -/
def CanonicalList : List Json → Prop
  | [] => True
  | v :: rest => v.Canonical ∧ CanonicalList rest

/-- Every member's value is canonical. -/
def CanonicalMembers : List (String × Json) → Prop
  | [] => True
  | (_, v) :: rest => v.Canonical ∧ CanonicalMembers rest

end

/-! ## Views -/

/-- A whole number as a value. -/
def ofInt (n : Int) : Json := .number (.int n)

/-- A value as a whole number in the signed 64-bit range. -/
def signed? : Json → Option Int
  | .number n => n.signed?
  | _ => none

/-- A value as a text. -/
def string? : Json → Option String
  | .string s => some s
  | _ => none

/-- Null, false, zero, and empty texts, arrays and objects. -/
def isBlank : Json → Bool
  | .null => true
  | .bool b => !b
  | .number n => n.isZero
  | .string s => s.isEmpty
  | .array items => items.isEmpty
  | .object members => members.isEmpty

end Json

end SettingStore
