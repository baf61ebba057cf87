import SettingStore.Json.Basic
import SettingStore.Ordered

set_option autoImplicit false

/-! # Setting documents

A store keeps documents, each with an id, a key and a value. Ids are whole numbers. Several
documents may have one key; the one with the lowest id is the one that counts. A `Setting`
is a document that need not have been saved yet. A store lists documents by key and then by
id; the module defines finding and listing on plain lists of documents, for every store to
use.
-/

namespace SettingStore

/-- A key with its value, and its id once it has been saved. -/
structure Setting where
  id : Option Int
  key : String
  value : Json
  deriving DecidableEq, Repr

/-- A stored key with its value. -/
structure Document where
  id : Int
  key : String
  value : Json
  deriving DecidableEq, Repr

/-- A stored document as a setting. -/
def Document.toSetting (d : Document) : Setting := ⟨some d.id, d.key, d.value⟩

/-- Which documents to list: those with a given key, and those whose key starts with a given
text. -/
structure Filter where
  key : Option String
  start : Option String
  deriving DecidableEq, Repr

namespace Filter

/-- The filter that every document passes. -/
def all : Filter := ⟨none, none⟩

/-- The document passes the filter. -/
def admits (f : Filter) (d : Document) : Bool :=
  (match f.key with
    | some key => d.key == key
    | none => true) &&
  (match f.start with
    | some start => start.toList.isPrefixOf d.key.toList
    | none => true)

end Filter

namespace Document

/-- The order of listings: by key, and by id where the keys agree. -/
def notAfter (d e : Document) : Bool :=
  if d.key = e.key then d.id ≤ e.id else decide (d.key < e.key)

/-- The documents that pass the filter, by key and then by id. -/
def list (f : Filter) (docs : List Document) : List Document :=
  Ordered.sort notAfter (docs.filter f.admits)

/-- The document with the lowest id in a list; the first one of several. -/
def lowest? : List Document → Option Document
  | [] => none
  | d :: rest =>
      match lowest? rest with
      | none => some d
      | some e => if d.id ≤ e.id then some d else some e

/-- The document that counts for a key. -/
def find? (key : String) (docs : List Document) : Option Document :=
  lowest? (docs.filter (·.key == key))

end Document

/-- An index over some fields of the documents, in order. -/
structure Index where
  name : String
  fields : List String
  unique : Bool
  deriving DecidableEq, Repr

namespace Index

/-- The first field of the index is `field`. -/
def leadsWith (index : Index) (field : String) : Bool := index.fields.head? == some field

/-- The index by itself makes `field` unique. -/
def isUniqueOn (index : Index) (field : String) : Bool :=
  index.unique && index.fields.length == 1 && index.leadsWith field

end Index

/-- The ids of the documents of a key that is stored more than once, and their number. -/
structure DuplicateGroup where
  key : String
  ids : List Int
  count : Nat
  deriving DecidableEq, Repr

end SettingStore
