import SettingStore.Json.Text
import SettingStore.Store.Table.Basic

set_option autoImplicit false

/-! # Tables as texts

The contents of a table are kept in a file as one JSON text, with the rows, the highest
number, the indexes and the entities. What the store knows about a unique index is not
written: it is found out when the store is opened.
-/

namespace SettingStore

/-- A column as it is written in a description of an index. -/
def Column.expression : Column → String
  | .key => "key"
  | .value => "value"
  | .lowerKey => "lower(key)"
  | .lowerValue => "lower(value)"

namespace Table

/-! ## Writing -/

/-- A row as a value. -/
def rowValue (row : Row) : Json :=
  .array [.ofInt row.id, .string row.key, (row.text.map Json.string).getD .null]

/-- An index as a value. -/
def indexValue (index : ColumnIndex) : Json :=
  .array
    [.string index.name, .array (index.columns.map fun c => .string c.expression),
      .bool index.unique]

/-- An entity as a value. -/
def entityValue (e : Entity) : Json :=
  .array [.string e.kind.name, .string e.id.text, .string e.name]

/-- The contents of a table as a text. -/
def snapshot (t : Table) : String :=
  (Json.object
    [("entities", .array (t.entities.map entityValue)), ("highest", .ofInt t.highest),
      ("indexes", .array (t.indexes.map indexValue)),
      ("rows", .array (t.rows.map rowValue))]).text

/-! ## Reading -/

/-- The row that a value describes. -/
def row? : Json → Option Row
  | .array [id, .string key, .string text] => id.signed?.map fun id => ⟨id, key, some text⟩
  | .array [id, .string key, .null] => id.signed?.map fun id => ⟨id, key, none⟩
  | _ => none

/-- The index that a value describes. -/
def index? : Json → Option ColumnIndex
  | .array [.string name, .array columns, .bool unique] =>
      (columns.mapM fun c => (Json.string? c).bind Column.ofExpression?).map fun columns =>
        ⟨name, columns, unique⟩
  | _ => none

/-- The entity that a value describes. -/
def entity? : Json → Option Entity
  | .array [.string kind, .string id, .string name] =>
      match EntityKind.ofName? kind, EntityId.ofText? id with
      | some kind, some id => some ⟨kind, id, name⟩
      | _, _ => none
  | _ => none

/-- The items of a member that is an array. -/
def items? (name : String) (members : List (String × Json)) : Option (List Json) :=
  match Json.member? name members with
  | some (.array items) => some items
  | _ => none

/-- The table that a text describes; an empty text describes an empty table. -/
def ofSnapshot? (s : String) : Option Table :=
  if s.isEmpty then some Table.empty
  else
    match Json.ofText? s with
    | some (.object members) => do
        let rows ← (← items? "rows" members).mapM row?
        let indexes ← (← items? "indexes" members).mapM index?
        let entities ← (← items? "entities" members).mapM entity?
        let highest ← (Json.member? "highest" members).bind Json.signed?
        pure (opened ⟨rows, highest, indexes, entities, false⟩)
    | _ => none

end Table

end SettingStore
