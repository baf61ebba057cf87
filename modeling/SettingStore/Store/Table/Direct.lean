import SettingStore.Store.Table.Basic

set_option autoImplicit false

/-! # Direct access to a table

What another program may do to the tables of an open store: insert rows with any text, and
create and drop indexes of any form. The store is not told, so what it knows about a unique
index on the key may no longer hold. The database refuses what its own rules forbid.
-/

namespace SettingStore.Table

/-- The names of the tables, which no index can have. -/
def tableNames : List String := ["settings", "entities"]

/-- What the names that belong to the database itself start with. -/
def reservedStart : List Char := "sqlite_".toList

/-- A name that the database gives to no new index. -/
def isReserved (name : String) : Bool :=
  tableNames.any (sameName name) ||
    reservedStart.isPrefixOf (Text.asciiLowerCase name).toList

/-- Insert a row with any text, or without one. -/
def insertDirectly? (t : Table) (key : String) (text : Option String) : Option (Int × Table) :=
  t.insertNext? key text

/-- Create an index over columns and expressions. -/
def createDirectly? (t : Table) (name : String) (fields : List String) (unique : Bool) :
    Option Table :=
  match fields.mapM Column.ofExpression? with
  | none | some [] => none
  | some columns =>
      if t.hasIndex name || isReserved name then none else t.addIndex? ⟨name, columns, unique⟩

/-- Drop an index, which has to exist. -/
def dropDirectly? (t : Table) (name : String) : Option Table :=
  if t.hasIndex name then
    some { t with indexes := t.indexes.filter fun index => !sameName name index.name }
  else none

end SettingStore.Table
