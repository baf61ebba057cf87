import SettingStore.Document
import SettingStore.Error
import SettingStore.Text.Escaped

set_option autoImplicit false

/-! # Setting definitions

A deployment may define settings of its own. A definition names a key, and it may have a
check, which rejects a setting or answers the value to store, and a fallback, which answers
the value that holds while nothing is stored. A check sees the whole setting and decides on
its value only.
-/

namespace SettingStore

/-- A check: the value to store for a setting, or why the setting is rejected. -/
abbrev Check := Setting → Except Error Json

/-- A setting of the deployment's own; its key is not empty. -/
structure Definition where
  key : String
  check : Option Check
  fallback : Option (Option Json)
  nonempty : key ≠ ""

namespace Definition

/-- A definition, if its key is not empty. -/
def make (key : String) (check : Option Check) (fallback : Option (Option Json)) :
    Except Error Definition :=
  if h : key = "" then .error (.configuration "Setting key must not be empty")
  else .ok ⟨key, check, fallback, h⟩

/-- A definition as text: its key, and whether it has a check and a fallback. -/
def describe (d : Definition) : String :=
  "SettingDefinition \x7b key: " ++ Text.quoted d.key ++
    ", validator: " ++ toString d.check.isSome ++
    ", default_fn: " ++ toString d.fallback.isSome ++ " \x7d"

/-- The value to store for a setting; without a check it is the value given. -/
def normalize (d : Definition) (s : Setting) : Except Error Json :=
  match d.check with
  | some check => check s
  | none => .ok s.value

end Definition

namespace Check

/-- Only whole numbers greater than zero. -/
def positive : Check := fun s =>
  match s.value.signed? with
  | some n => if 0 < n then .ok s.value else .error (.invalidValue "Limit must be positive.")
  | none => .error (.invalidValue "Limit must be positive.")

/-- One value, whatever is given. -/
def always (v : Json) : Check := fun _ => .ok v

/-- No value at all. -/
def never (violation : Violation) : Check := fun _ => .error (.invalid violation)

end Check

end SettingStore
