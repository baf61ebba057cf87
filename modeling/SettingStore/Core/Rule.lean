import SettingStore.Core.Key
import SettingStore.Origin.Basic
import SettingStore.Plugin.Resolution
import SettingStore.Session
import SettingStore.Text.Entries

set_option autoImplicit false

/-! # Rules for the values of core settings

Each core key has one rule, which either rejects a value or answers its normal form. Most
rules look at the value alone. The rule for enabled plugins resolves dependencies, and the
one for the collection policy looks up the users and groups that it names, so a rule is
applied in a session.
-/

namespace SettingStore

/-- What the core settings know about the deployment: the installed plugins, and the origin
under which the server is reached, if there is one. -/
structure Deployment where
  plugins : Catalog
  origin : Option Origin

/-- What is demanded of a value, with the message for values that fail it. -/
inductive Rule where
  /-- A list of plugin names, resolved with their dependencies. -/
  | plugins
  /-- One of the words, as it is written. -/
  | word (words : List String) (message : String)
  /-- One of the words, in any case; stored in lower case. -/
  | anyCaseWord (words : List String) (message : String)
  /-- An object whose groups and users exist. -/
  | collectionPolicy
  /-- A whole number that is at least `least`. -/
  | wholeNumber (least : Int) (message : String)
  /-- A list of entries in one text, each of them mapped. -/
  | entries (map : String → String) (message : String)
  /-- Any value that is not blank. -/
  | notBlank (message : String)
  /-- A text, stored without the blanks around it. -/
  | trimmed (message : String)
  /-- Any value. -/
  | anything

namespace CoreKey

/-- The rule of a core key. -/
def rule : CoreKey → Rule
  | .pluginsEnabled => .plugins
  | .addToGroupPolicy =>
      .anyCaseWord ["never", "noadmin", "nomod", "yesadmin", "yesmod", ""]
        ("Add to group policy must be one of \"never\", \"noadmin\", \"nomod\", " ++
          "\"yesadmin\", or \"yesmod\".")
  | .collectionCreatePolicy => .collectionPolicy
  | .cookieLifetime => .wholeNumber 1 "Cookie lifetime must be an integer > 0."
  | .corsAllowMethods =>
      .entries Text.upperCase
        "Allowed methods must be a comma-separated list or an empty string."
  | .corsAllowHeaders =>
      .entries id "Allowed headers must be a comma-separated list or an empty string."
  | .corsAllowOrigin =>
      .entries Text.dropSlashes
        ("Allowed origin must be a comma-separated list of base urls or * or an empty " ++
          "string.")
  | .emailFromAddress => .notBlank "Email from address must not be blank."
  | .emailHost => .trimmed "Email host must be a string."
  | .registrationPolicy =>
      .anyCaseWord ["open", "closed", "approve"]
        "Registration policy must be \"open\", \"closed\", or \"approve\"."
  | .emailVerification =>
      .anyCaseWord ["required", "optional", "disabled"]
        "Email verification must be \"required\", \"optional\", or \"disabled\"."
  | .smtpHost => .notBlank "SMTP host must not be blank."
  | .smtpPort => .wholeNumber 1 "SMTP port must be an integer > 0."
  | .smtpEncryption =>
      .word ["none", "starttls", "ssl"]
        "SMTP encryption must be one of \"none\", \"starttls\", or \"ssl\"."
  | .smtpUsername => .anything
  | .smtpPassword => .anything
  | .uploadMinimumChunkSize =>
      .wholeNumber 0 "Upload minimum chunk size must be an integer >= 0."
  | .userDefaultFolders =>
      .word ["public_private", "none"]
        "User default folders must be either \"public_private\" or \"none\"."

end CoreKey

/-! ## Whole numbers -/

/-- The whole number in the signed 64-bit range that a value denotes: a number, of which a
binary64 one is cut off toward zero, a truth value as 0 or 1, or a text in decimal with blanks
around it. -/
def Json.toWhole? : Json → Option Int
  | .number (.int n) => if Word.Signed n then some n else none
  | .number (.float x) => if Word.Signed x.whole then some x.whole else none
  | .bool b => some (if b then 1 else 0)
  | .string s => Text.signed? (Text.trimChars s.toList)
  | _ => none

/-! ## Plugins -/

/-- A list of texts. -/
def Json.strings? : Json → Option (List String)
  | .array items => items.mapM Json.string?
  | _ => none

/-- The enabled plugins with all they depend on. -/
def Deployment.enabledPlugins (deployment : Deployment) (v : Json) : Except Error Json :=
  match v.strings? with
  | none => .error (.invalidValue "Plugins enabled setting must be a list.")
  | some names =>
      match deployment.plugins.resolve names with
      | .error e => .error e
      | .ok sorted => .ok (.array (sorted.map .string))

/-! ## Users and groups -/

namespace Session

/-- Look up an entity. With `required` set, one that does not exist is an error. Settings have
no access control of their own, so forcing the access past such control changes nothing. -/
def loadEntity (kind : EntityKind) (id : EntityId) (_force required : Bool) :
    Session (Option Entity) := do
  let found : Option Entity ← call (.readEntity kind id)
  match found with
  | some entity => pure (some entity)
  | none =>
      if required then fail (.invalidId ("No such " ++ kind.name ++ ": " ++ id.text))
      else pure none

/-- The canonical ids of the entities that the values name, each of which has to exist. -/
def canonicalIds (kind : EntityKind) : List Json → Session (List Json)
  | [] => pure []
  | v :: rest => do
      let id ← ofExcept (EntityId.ofValue v)
      let _ ← loadEntity kind id true true
      let others ← canonicalIds kind rest
      pure (.string id.text :: others)

/-- The members with the ids in the member `name`, if there is one, made canonical. -/
def resolveIds (kind : EntityKind) (name : String) (members : List (String × Json)) :
    Session (List (String × Json)) :=
  match Json.member? name members with
  | none => pure members
  | some (.array ids) => do
      let canonical ← canonicalIds kind ids
      pure (members.map fun m => if m.1 == name then (m.1, .array canonical) else m)
  | some _ =>
      fail (.invalidValue ("Collection creation policy " ++ name ++ " must be a list."))

/-- The collection policy with canonical ids, closed unless it says otherwise. -/
def collectionPolicy (v : Json) : Session Json :=
  match v with
  | .object members => do
      let members ← resolveIds .group "groups" members
      let members ← resolveIds .user "users" members
      -- Only a policy that says nothing about it is closed; null is not nothing.
      if (Json.member? "open" members).isSome then pure (.object members)
      else pure (.object (Json.setMember "open" (.bool false) members))
  | _ => fail (.invalidValue "Collection creation policy must be a JSON object.")

end Session

/-! ## Applying a rule -/

/-- The normal form of a value under a rule. -/
def Rule.normalize (deployment : Deployment) (rule : Rule) (v : Json) : Session Json :=
  match rule with
  | .plugins => .ofExcept (deployment.enabledPlugins v)
  | .word words message =>
      match v with
      | .string s => if words.contains s then pure v else .fail (.invalidValue message)
      | _ => .fail (.invalidValue message)
  | .anyCaseWord words message =>
      match v with
      | .string s =>
          let lower := Text.lowerCase s
          if words.contains lower then pure (.string lower) else .fail (.invalidValue message)
      | _ => .fail (.invalidValue message)
  | .collectionPolicy => .collectionPolicy v
  | .wholeNumber least message =>
      match v.toWhole? with
      | some n =>
          if least ≤ n then pure (.ofInt n) else .fail (.invalidValue message)
      | none => .fail (.invalidValue message)
  | .entries map message =>
      match v with
      | .string s => pure (.string (Text.normalEntries map s))
      | _ => .fail (.invalidValue message)
  | .notBlank message => if v.isBlank then .fail (.invalidValue message) else pure v
  | .trimmed message =>
      match v with
      | .string s => pure (.string (Text.trim s))
      | _ => .fail (.invalidValue message)
  | .anything => pure v

end SettingStore
