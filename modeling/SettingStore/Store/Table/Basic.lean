import SettingStore.Document
import SettingStore.Entity
import SettingStore.Json.Text
import SettingStore.Service
import SettingStore.Store.Table.IdList
import SettingStore.Store.Table.QuotedName
import SettingStore.Text.Case

set_option autoImplicit false

/-! # Tables

The contents of a relational store: rows with a number, a key and the text of a value,
indexes over their columns, and entities. A statement that would leave two rows that agree
on all columns of a unique index changes nothing. Row numbers are 64-bit numbers; a row
without a given number gets one more than the highest number that was ever used, and none is
left once the greatest number has been used.
-/

namespace SettingStore

/-- A row of the settings table. The text may be missing. -/
structure Row where
  id : Int
  key : String
  text : Option String
  deriving DecidableEq, Repr

/-- The document of a row. A text that is missing or denotes no value reads as null. -/
def Row.document (row : Row) : Document :=
  ⟨row.id, row.key, (row.text.bind Json.ofText?).getD .null⟩

/-! ## Indexes over columns -/

/-- What an index covers: a column, or a column in lower case. -/
inductive Column where
  | key
  | value
  | lowerKey
  | lowerValue
  deriving DecidableEq, Repr

namespace Column

/-- The plain column with a name. -/
def ofField? (field : String) : Option Column :=
  if field = "key" then some .key else if field = "value" then some .value else none

/-- The column with a name, or one written as an expression. -/
def ofExpression? (field : String) : Option Column :=
  if field = "lower(key)" then some .lowerKey
  else if field = "lower(value)" then some .lowerValue
  else ofField? field

/-- The name of a column; an expression has none. -/
def label : Column → String
  | .key => "key"
  | .value => "value"
  | .lowerKey | .lowerValue => ""

/-- What a row holds in a column. -/
def content (row : Row) : Column → Option String
  | .key => some row.key
  | .value => row.text
  | .lowerKey => some (Text.asciiLowerCase row.key)
  | .lowerValue => row.text.map Text.asciiLowerCase

end Column

/-- An index over columns. -/
structure ColumnIndex where
  name : String
  columns : List Column
  unique : Bool
  deriving DecidableEq, Repr

namespace ColumnIndex

/-- The index as it is reported. -/
def report (index : ColumnIndex) : Index := ⟨index.name, index.columns.map (·.label), index.unique⟩

/-- Two rows agree on every column of the index; a missing text agrees with nothing. -/
def agree (index : ColumnIndex) (a b : Row) : Bool :=
  index.columns.all fun column =>
    match column.content a, column.content b with
    | some x, some y => x == y
    | _, _ => false

/-- The rows respect the index: if it is unique, no two of them agree on it. -/
def Respected (index : ColumnIndex) (rows : List Row) : Prop :=
  index.unique = true → rows.Pairwise fun a b => index.agree a b = false

instance (index : ColumnIndex) (rows : List Row) : Decidable (index.Respected rows) :=
  inferInstanceAs (Decidable (_ → _))

end ColumnIndex

/-! ## Tables -/

/-- The contents of the store. The rows stand in the order of their numbers and the indexes
from the newest to the oldest. `keyUnique` is what the store knows about a unique index on
the key alone; it is brought up to date when the store is opened and after the store itself
has created or dropped an index. -/
structure Table where
  rows : List Row
  highest : Int
  indexes : List ColumnIndex
  entities : List Entity
  keyUnique : Bool

namespace Table

/-- The table without contents. -/
def empty : Table := ⟨[], 0, [], [], false⟩

/-- The stored documents. -/
def documents (t : Table) : List Document := t.rows.map Row.document

/-- A unique index on the key alone exists. -/
def hasUniqueKey (t : Table) : Bool :=
  t.indexes.any fun index => index.report.isUniqueOn Service.keyField

/-- Open the store over its contents. -/
def opened (t : Table) : Table := { t with keyUnique := t.hasUniqueKey }

/-- Put a row in its place among the rows, in the place of one with its number. -/
def putRow (row : Row) : List Row → List Row
  | [] => [row]
  | other :: rest =>
      if row.id = other.id then row :: rest
      else if row.id < other.id then row :: other :: rest
      else other :: putRow row rest

/-- A row that was put in its place is there, and all others but the one that it replaces. -/
theorem mem_putRow {row other : Row} {rows : List Row}
    (sorted : rows.Pairwise fun a b => a.id < b.id) :
    other ∈ putRow row rows ↔ other = row ∨ (other ∈ rows ∧ other.id ≠ row.id) := by
  induction rows with
  | nil => simp [putRow]
  | cons first rest ih =>
      obtain ⟨hfirst, hrest⟩ := List.pairwise_cons.1 sorted
      rw [putRow]
      split
      · rename_i he
        -- The first row is replaced, and the rows after it have greater numbers.
        rw [List.mem_cons, List.mem_cons]
        constructor
        · rintro (h | h)
          · exact Or.inl h
          · have := hfirst other h
            exact Or.inr ⟨Or.inr h, by omega⟩
        · rintro (h | ⟨rfl | h, hne⟩)
          · exact Or.inl h
          · exact absurd he.symm hne
          · exact Or.inr h
      · rename_i hne
        split
        · rename_i hlt
          -- The row comes first, and all rows have greater numbers.
          rw [List.mem_cons]
          refine or_congr_right ⟨fun h => ⟨h, ?_⟩, fun h => h.1⟩
          rcases List.mem_cons.1 h with rfl | h
          · omega
          · have := hfirst other h
            omega
        · rw [List.mem_cons, ih hrest, List.mem_cons]
          constructor
          · rintro (rfl | h | ⟨h, hid⟩)
            · exact Or.inr ⟨Or.inl rfl, fun he => hne he.symm⟩
            · exact Or.inl h
            · exact Or.inr ⟨Or.inr h, hid⟩
          · rintro (h | ⟨rfl | h, hid⟩)
            · exact Or.inr (Or.inl h)
            · exact Or.inl rfl
            · exact Or.inr (Or.inr ⟨h, hid⟩)

/-- Putting a row in its place keeps the rows in the order of their numbers. -/
theorem putRow_pairwise (row : Row) {rows : List Row}
    (sorted : rows.Pairwise fun a b => a.id < b.id) :
    (putRow row rows).Pairwise fun a b => a.id < b.id := by
  induction rows with
  | nil => exact List.pairwise_singleton _ row
  | cons first rest ih =>
      obtain ⟨hfirst, hrest⟩ := List.pairwise_cons.1 sorted
      rw [putRow]
      split
      · rename_i he
        refine List.pairwise_cons.2 ⟨?_, hrest⟩
        intro other h
        have := hfirst other h
        omega
      · split
        · rename_i hlt
          refine List.pairwise_cons.2 ⟨?_, sorted⟩
          intro other h
          rcases List.mem_cons.1 h with rfl | h
          · exact hlt
          · have := hfirst other h
            omega
        · rename_i hne hnlt
          refine List.pairwise_cons.2 ⟨?_, ih hrest⟩
          intro other h
          rcases (mem_putRow hrest).1 h with rfl | ⟨h, _⟩
          · omega
          · exact hfirst other h

/-- The table with other rows and another highest number, if all its indexes allow that. -/
def withRows? (t : Table) (rows : List Row) (highest : Int) : Option Table :=
  if ∀ index ∈ t.indexes, index.Respected rows then some { t with rows, highest } else none

/-! ## Statements on rows -/

/-- Insert a row under the next number. -/
def insertNext? (t : Table) (key : String) (text : Option String) : Option (Int × Table) :=
  if Word.maxSigned ≤ t.highest then none
  else
    (t.withRows? (putRow ⟨t.highest + 1, key, text⟩ t.rows) (t.highest + 1)).map
      fun t' => (t.highest + 1, t')

/-- Insert a row under the next number, unless the key is stored: then the row of the key gets
the text, and the number is used up. There has to be a unique index on the key alone. -/
def upsert? (t : Table) (key : String) (text : Option String) : Option (Int × Table) :=
  if !t.hasUniqueKey || decide (Word.maxSigned ≤ t.highest) then none
  else
    match t.rows.find? (·.key == key) with
    | none => t.insertNext? key text
    | some row =>
        -- The row keeps its number, and the one it would have got is used up.
        (t.withRows? (putRow ⟨row.id, key, text⟩ t.rows) (t.highest + 1)).map
          fun t' => (row.id, t')

/-- Insert a row under a given number, or give the row with that number the key and the
text. -/
def put? (t : Table) (id : Int) (key : String) (text : Option String) : Option (Int × Table) :=
  if Word.Signed id then
    (t.withRows? (putRow ⟨id, key, text⟩ t.rows) (max t.highest id)).map fun t' => (id, t')
  else none

/-- Save a setting, with its value as text. -/
def save (t : Table) (s : Setting) : Except Error Document × Table :=
  let text := some s.value.text
  let saved := match s.id with
    | some id => t.put? id s.key text
    | none => if t.keyUnique then t.upsert? s.key text else t.insertNext? s.key text
  match saved with
  | some (id, t') => (.ok ⟨id, s.key, s.value⟩, t')
  | none => (.error .database, t)

/-- Remove the row with a number. -/
def remove (t : Table) (id : Int) : Table :=
  { t with rows := t.rows.filter (·.id != id) }

/-! ## Statements on indexes -/

/-- Two names are the same when they differ at most in the case of ASCII letters. -/
def sameName (a b : String) : Bool := Text.asciiLowerCase a == Text.asciiLowerCase b

/-- Some index has the name. -/
def hasIndex (t : Table) (name : String) : Bool := t.indexes.any (sameName name ·.name)

/-- Add an index, if the rows respect it. -/
def addIndex? (t : Table) (index : ColumnIndex) : Option Table :=
  if index.Respected t.rows then some { t with indexes := index :: t.indexes } else none

/-- The name of the index that is created on a column. -/
def indexName (column : Column) (unique : Bool) : String :=
  "idx_settings_" ++ column.label ++ (if unique then "_unique" else "")

/-- Create an index on a column, unless one of its name exists. -/
def createIndex (t : Table) (field : String) (unique : Bool) : Except Error Unit × Table :=
  match Column.ofField? field with
  | none => (.error (.configuration ("Cannot index unknown settings field '" ++ field ++ "'")), t)
  | some column =>
      let name := indexName column unique
      -- An index of that name is left as it is, whatever it covers.
      if t.hasIndex name then (.ok (), t.opened)
      else
        match t.addIndex? ⟨name, [column], unique⟩ with
        | some t' => (.ok (), t'.opened)
        | none => (.error .database, t)

/-- The index that belongs to the primary key of the entities and cannot be dropped. -/
def primaryIndex : String := "sqlite_autoindex_entities_1"

/-- Drop the index that a statement names; a name that no index has is fine. -/
def dropIndex (t : Table) (name : String) : Except Error Unit × Table :=
  match QuotedName.dropped? (QuotedName.dropStatement name) with
  | none => (.error .database, t)
  | some name =>
      if sameName name primaryIndex then (.error .database, t)
      else
        (.ok (),
          opened { t with indexes := t.indexes.filter fun index => !sameName name index.name })

/-! ## Queries -/

/-- The keys that are stored, each once and in order. -/
def keys (t : Table) : List String :=
  Ordered.sort (fun a b => decide (a ≤ b)) (t.rows.map (·.key)).eraseDups

/-- The group of a key, with its ids joined to one text by the database and read back. -/
def group? (t : Table) (key : String) : Option DuplicateGroup :=
  let ids := (t.rows.filter (·.key == key)).map (·.id)
  (IdList.read? (IdList.chars ids)).map fun read => ⟨key, read, ids.length⟩

/-- The keys stored more than once. -/
def duplicates (t : Table) : Except Error (List DuplicateGroup) :=
  let repeated := t.keys.filter fun key => decide (1 < (t.rows.filter (·.key == key)).length)
  match repeated.mapM t.group? with
  | some groups => .ok groups
  | none => .error .database

/-- Create an entity, in the place of one with its kind and id. -/
def createEntity (t : Table) (entity : Entity) : Table :=
  let others := t.entities.filter fun e => !(e.kind == entity.kind && e.id == entity.id)
  { t with entities := others ++ [entity] }

/-- The table store as a backend. -/
def backend : Backend Table where
  answer t
    | .findSetting key => (.ok (Document.find? key t.documents), t)
    | .listSettings filter => (.ok (Document.list filter t.documents), t)
    | .saveSetting s => t.save s
    | .removeSetting id => (.ok (), t.remove id)
    | .listIndexes => (.ok (t.indexes.map (·.report)), t)
    | .dropIndex name => t.dropIndex name
    | .createIndex field unique => t.createIndex field unique
    | .listDuplicates => (t.duplicates, t)
    | .readEntity kind id => (.ok (t.entities.find? fun e => e.kind == kind && e.id == id), t)
    | .createEntity entity => (.ok (), t.createEntity entity)

end Table

end SettingStore
