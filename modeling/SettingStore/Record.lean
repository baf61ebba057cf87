import SettingStore.Document
import SettingStore.Entity

set_option autoImplicit false

/-! # Records as JSON texts

Settings, entities, document ids, entity ids and entity kinds are written as JSON texts and
read back. A record is an object with one member per field, written in a fixed order; when
it is read the members may come in any order, members with other names are passed over
whatever they contain, and a field must not be given twice. A record may also be an array of
exactly its fields in order. What is passed over has to keep to the grammar only, so records
are read from syntax trees rather than from values.
-/

namespace SettingStore.Record

open Json

/-! ## Fields of a record -/

/-- The trees given for the field `name` among the members of an object. -/
def given (name : String) (members : List (String × Tree)) : List Tree :=
  (members.filter (·.1 == name)).map (·.2)

/-- The names of the members; none when one of them is not a text. -/
def named? : List (List Piece × Tree) → Option (List (String × Tree))
  | [] => some []
  | (name, t) :: rest =>
      match Piece.text? name, named? rest with
      | some cs, some others => some ((String.ofList cs, t) :: others)
      | _, _ => none

/-- What is given for each of the fields, in the order of `names`: nothing or one tree.
There is no answer if a field is given twice, or an array has another length. -/
def fields? (names : List String) : Tree → Option (List (Option Tree))
  | .array items => if items.length = names.length then some (items.map some) else none
  | .object members =>
      (named? members).bind fun members =>
        names.mapM fun name =>
          match given name members with
          | [] => some none
          | [t] => some (some t)
          | _ => none
  | _ => none

/-! ## Reading the parts -/

/-- A text. -/
def text? : Tree → Option String
  | .string pieces => (Piece.text? pieces).map String.ofList
  | _ => none

/-- A document id: a whole number without point or exponent in the signed 64-bit range. -/
def docId? : Tree → Option Int
  | .number n => (Number.ofNumeral? n).bind Number.signed?
  | _ => none

/-- A document id, or null for none. -/
def docIdOrNull? : Tree → Option (Option Int)
  | .null => some none
  | t => (docId? t).map some

/-- An entity id, in any accepted spelling. -/
def entityId? (t : Tree) : Option EntityId := (text? t).bind EntityId.ofText?

/-- An entity kind: its name, or an object whose one member has that name and is null. -/
def entityKind? : Tree → Option EntityKind
  | .string pieces => (Piece.text? pieces).bind fun cs => EntityKind.ofName? (String.ofList cs)
  | .object [(name, .null)] =>
      (Piece.text? name).bind fun cs => EntityKind.ofName? (String.ofList cs)
  | _ => none

/-- A setting: an optional id, a key and a value. The record is itself a container, so its
value may stand one level less deep than a text may. -/
def setting? (t : Tree) : Option Setting :=
  match fields? ["_id", "key", "value"] t with
  | some [id, some key, some value] =>
      -- Without an id, and with null for one, the setting has not been saved yet.
      match (id.map docIdOrNull?).getD (some none), text? key,
        ofTree? (maxDepth - 1) value with
      | some id, some key, some value => some ⟨id, key, value⟩
      | _, _, _ => none
  | _ => none

/-- An entity: kind, id and name. -/
def entity? (t : Tree) : Option Entity :=
  match fields? ["kind", "id", "name"] t with
  | some [some kind, some id, some name] =>
      match entityKind? kind, entityId? id, text? name with
      | some kind, some id, some name => some ⟨kind, id, name⟩
      | _, _, _ => none
  | _ => none

/-! ## Writing

The members of a written record stand in the order of its fields, which need not be the
order of their names, so these are texts and not canonical values. -/

/-- The members of a setting; an unsaved one has no id. -/
def settingMembers (s : Setting) : List (String × Json) :=
  (match s.id with
    | some id => [("_id", ofInt id)]
    | none => []) ++ [("key", .string s.key), ("value", s.value)]

/-- The text of a setting. -/
def settingText (s : Setting) : String := (Json.object (settingMembers s)).text

/-- The text of an entity. -/
def entityText (e : Entity) : String :=
  (Json.object
    [("kind", .string e.kind.name), ("id", .string e.id.text), ("name", .string e.name)]).text

/-- The text of a document id. -/
def docIdText (id : Int) : String := (ofInt id).text

/-- The text of an entity id. -/
def entityIdText (id : EntityId) : String := (Json.string id.text).text

/-- The text of an entity kind. -/
def entityKindText (kind : EntityKind) : String := (Json.string kind.name).text

end SettingStore.Record
