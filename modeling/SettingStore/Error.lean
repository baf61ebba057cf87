set_option autoImplicit false

/-! # Errors

What can go wrong, by cause. The wording is in `Violation.text` and `Error.text` alone.
-/

namespace SettingStore

/-- A rejected part of a document: `key` for the key of a setting, `value` for its value and
`id` for an entity that it refers to. -/
structure Violation where
  field : String
  message : String
  deriving DecidableEq, Repr

/-- The wording of a violation. -/
def Violation.text (v : Violation) : String := v.message ++ " (field: " ++ v.field ++ ")"

/-- The causes of failure: a thing that is not there, the store, a contradiction in the set-up,
a violation, and the file system. -/
inductive Error where
  | notFound
  | database
  | configuration (reason : String)
  | invalid (violation : Violation)
  | fileSystem (cause : String)
  deriving DecidableEq, Repr

namespace Error

/-- A rejected key. -/
def invalidKey (message : String) : Error := .invalid ⟨"key", message⟩

/-- A rejected value. -/
def invalidValue (message : String) : Error := .invalid ⟨"value", message⟩

/-- A rejected reference to an entity. -/
def invalidId (message : String) : Error := .invalid ⟨"id", message⟩

/-- The violation, for an error that is one. -/
def violation? : Error → Option Violation
  | .invalid v => some v
  | _ => none

/-- The underlying cause, for an error of the file system. -/
def cause? : Error → Option String
  | .fileSystem cause => some cause
  | _ => none

/-- The wording of an error. -/
def text : Error → String
  | .notFound => "not found"
  | .database => "database error"
  | .configuration reason => "configuration error: " ++ reason
  | .invalid v => "validation error: " ++ v.text
  | .fileSystem cause => "I/O error: " ++ cause

end Error

end SettingStore
