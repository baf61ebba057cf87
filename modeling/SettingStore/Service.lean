import SettingStore.Registry.Basic
import SettingStore.Session

set_option autoImplicit false

/-! # The settings service

Reading and writing settings through a registry. A value is normalized by the handler of its
key before it is stored; a key that is not stored has its default. The service keeps at most
one document per key, with the help of a unique index on the key that `Service.reconnect`
makes sure of: it drops the plain indexes on the key, deletes every document of a key but the
one with the lowest id, and creates the unique index.
-/

namespace SettingStore

/-- A service for the settings of a registry. -/
structure Service where
  registry : FrozenRegistry

namespace Service

/-! ## Defaults and reading -/

/-- The value of a key that is not stored: the registered default, else the default of the
handler. -/
def default? (service : Service) (key : String) : Option Json :=
  match service.registry.staticDefault? key with
  | some v => some v
  | none => (service.registry.handler? key).bind Handler.default?

/-- The stored value of a key, or its default, or null. -/
def get (service : Service) (key : String) : Session Json := do
  let found : Option Document ← .call (.findSetting key)
  match found with
  | some d => pure d.value
  | none => pure ((service.default? key).getD .null)

/-- The stored value of a key, or the given one. -/
def getOr (key : String) (otherwise : Json) : Session Json := do
  let found : Option Document ← .call (.findSetting key)
  match found with
  | some d => pure d.value
  | none => pure otherwise

/-- The error for a value of the wrong kind. -/
def mismatch (key : String) (expected : String) (v : Json) : Error :=
  .invalidValue ("Setting '" ++ key ++ "' is not " ++ expected ++ ", got " ++ v.text)

/-- The effective value as a text; none for null. -/
def getString (service : Service) (key : String) : Session (Option String) := do
  match ← service.get key with
  | .null => pure none
  | .string s => pure (some s)
  | v => .fail (mismatch key "a string" v)

/-- The effective value as a whole number in the signed 64-bit range; none for null. -/
def getInt (service : Service) (key : String) : Session (Option Int) := do
  match ← service.get key with
  | .null => pure none
  | v =>
      match v.signed? with
      | some n => pure (some n)
      | none => .fail (mismatch key "an integer" v)

/-- The effective value as a truth value; none for null. -/
def getBool (service : Service) (key : String) : Session (Option Bool) := do
  match ← service.get key with
  | .null => pure none
  | .bool b => pure (some b)
  | v => .fail (mismatch key "a boolean" v)

/-- The stored documents whose key starts with the given text, if one is given. -/
def list (start : Option String) : Session (List Document) :=
  .call (.listSettings ⟨none, start⟩)

/-! ## Writing -/

/-- The setting with its value normalized by the handler of its key. -/
def validate (service : Service) (s : Setting) : Session Setting :=
  match service.registry.handler? s.key with
  | none => .fail (CoreKey.unknown s.key)
  | some handler => do
      let v ← handler.normalize s
      pure { s with value := v }

/-- Normalize and store a value, in the document of its key if there is one. -/
def set (service : Service) (key : String) (v : Json) : Session Document := do
  let found : Option Document ← .call (.findSetting key)
  let setting ← service.validate
    (match found with
      | some d => ⟨some d.id, d.key, v⟩
      | none => ⟨none, key, v⟩)
  .call (.saveSetting setting)

/-- Remove documents one after another. -/
def removeAll : List Document → Session Unit
  | [] => pure ()
  | d :: rest => do
      let _ : Unit ← .call (.removeSetting d.id)
      removeAll rest

/-- Remove every document of a key. -/
def unset (key : String) : Session Unit := do
  let docs : List Document ← .call (.listSettings ⟨some key, none⟩)
  removeAll docs

/-! ## The unique index -/

/-- The field that the unique index covers. -/
def keyField : String := "key"

/-- Drop the indexes that lead with the key and are not unique; one that cannot be dropped is
left. -/
def dropPlain : List Index → Session Unit
  | [] => pure ()
  | index :: rest =>
      if !index.unique && index.leadsWith keyField then do
        let _ ← .attempt (.dropIndex index.name)
        dropPlain rest
      else dropPlain rest

/-- Remove documents one after another; one that cannot be removed is left. -/
def removeExtra : List Int → Session Unit
  | [] => pure ()
  | id :: rest => do
      let _ ← .attempt (.removeSetting id)
      removeExtra rest

/-- Remove all but the lowest id of each group. -/
def removeDuplicates : List DuplicateGroup → Session Unit
  | [] => pure ()
  | group :: rest => do
      removeExtra ((Ordered.sort (fun a b => decide (a ≤ b)) group.ids).drop 1)
      removeDuplicates rest

/-- Make sure of a unique index on the key alone. Indexes that cannot be listed count as
none. -/
def reconnect : Session Unit := do
  let listed ← .attempt .listIndexes
  let indexes : List Index := match listed with
    | .ok indexes => indexes
    | .error _ => []
  -- An index on several fields does not make the key unique.
  if indexes.any (·.isUniqueOn keyField) then pure ()
  else do
    dropPlain indexes
    let groups : List DuplicateGroup ← .call .listDuplicates
    removeDuplicates groups
    .call (.createIndex keyField true)

/-- A service whose unique index was made sure of. -/
def connect (registry : FrozenRegistry) : Session Service := do
  reconnect
  pure ⟨registry⟩

end Service

end SettingStore
