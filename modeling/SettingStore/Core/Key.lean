import SettingStore.Error
import SettingStore.Json.Basic

set_option autoImplicit false

/-! # The core settings

The keys that every deployment has, with their names and the values that hold while nothing
is stored. `CoreKey.all` lists them in the order in which they are registered.
-/

namespace SettingStore

inductive CoreKey where
  | pluginsEnabled
  | addToGroupPolicy
  | collectionCreatePolicy
  | cookieLifetime
  | corsAllowMethods
  | corsAllowHeaders
  | corsAllowOrigin
  | emailFromAddress
  | emailHost
  | registrationPolicy
  | emailVerification
  | smtpHost
  | smtpPort
  | smtpEncryption
  | smtpUsername
  | smtpPassword
  | uploadMinimumChunkSize
  | userDefaultFolders
  deriving DecidableEq, Repr

namespace CoreKey

/-- All core keys, in the order of registration. -/
def all : List CoreKey :=
  [.pluginsEnabled, .addToGroupPolicy, .collectionCreatePolicy, .cookieLifetime,
   .corsAllowMethods, .corsAllowHeaders, .corsAllowOrigin, .emailFromAddress, .emailHost,
   .registrationPolicy, .emailVerification, .smtpHost, .smtpPort, .smtpEncryption,
   .smtpUsername, .smtpPassword, .uploadMinimumChunkSize, .userDefaultFolders]

/-- The key as it is stored. -/
def name : CoreKey → String
  | .pluginsEnabled => "core.plugins_enabled"
  | .addToGroupPolicy => "core.add_to_group_policy"
  | .collectionCreatePolicy => "core.collection_create_policy"
  | .cookieLifetime => "core.cookie_lifetime"
  | .corsAllowMethods => "core.cors.allow_methods"
  | .corsAllowHeaders => "core.cors.allow_headers"
  | .corsAllowOrigin => "core.cors.allow_origin"
  | .emailFromAddress => "core.email_from_address"
  | .emailHost => "core.email_host"
  | .registrationPolicy => "core.registration_policy"
  | .emailVerification => "core.email_verification"
  | .smtpHost => "core.smtp_host"
  | .smtpPort => "core.smtp.port"
  | .smtpEncryption => "core.smtp.encryption"
  | .smtpUsername => "core.smtp.username"
  | .smtpPassword => "core.smtp.password"
  | .uploadMinimumChunkSize => "core.upload_minimum_chunk_size"
  | .userDefaultFolders => "core.user_default_folders"

/-- The error for a key that is not known. -/
def unknown (key : String) : Error := .invalidKey ("Invalid setting key \"" ++ key ++ "\".")

/-- The core key with a name. -/
def ofName (s : String) : Except Error CoreKey :=
  match all.find? (·.name == s) with
  | some key => .ok key
  | none => .error (unknown s)

/-- The name of a core key reads back as the key. -/
@[simp] theorem ofName_name (key : CoreKey) : ofName key.name = .ok key := by
  have h : all.find? (·.name == key.name) = some key := by cases key <;> decide
  rw [ofName, h]

/-- No two core keys have one name. -/
theorem name_injective {a b : CoreKey} (h : a.name = b.name) : a = b := by
  have ha := ofName_name a
  rw [h, ofName_name] at ha
  exact (Except.ok.inj ha).symm

/-- The value that holds while nothing is stored, for the keys that have a fixed one. -/
def staticDefault? : CoreKey → Option Json
  | .pluginsEnabled => some (.array [])
  | .addToGroupPolicy => some (.string "never")
  | .collectionCreatePolicy =>
      some (.object [("groups", .array []), ("open", .bool false), ("users", .array [])])
  | .cookieLifetime => some (.ofInt 180)
  | .corsAllowMethods => some (.string "GET, POST, PUT, HEAD, DELETE")
  | .corsAllowHeaders =>
      some (.string ("Accept-Encoding, Authorization, Content-Disposition, Content-Type, " ++
        "Cookie, Cairn-Authorization, Cairn-Token"))
  | .emailFromAddress => some (.string "Cairn <no-reply@cairn.local>")
  | .registrationPolicy => some (.string "open")
  | .emailVerification => some (.string "disabled")
  | .smtpHost => some (.string "localhost")
  | .smtpPort => some (.ofInt 25)
  | .smtpEncryption => some (.string "none")
  | .smtpUsername => some (.string "")
  | .smtpPassword => some (.string "")
  | .uploadMinimumChunkSize => some (.ofInt 5242880)
  | .userDefaultFolders => some (.string "public_private")
  | .corsAllowOrigin => none
  | .emailHost => none

end CoreKey

end SettingStore
