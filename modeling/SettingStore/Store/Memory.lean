import SettingStore.Service

set_option autoImplicit false

/-! # The store in memory

A store that keeps the documents in a list, in the order of their ids. Ids count from one up.
Where a unique index on the key alone exists, a new document of a stored key replaces the
value of the first document of that key. No unique index can be created while some key is
stored twice, whatever the index covers.
-/

namespace SettingStore

/-- The contents of the store: documents, indexes and entities in the order in which they were
added, the last id given out, and a record of the indexes dropped and created. -/
structure Memory where
  documents : List Document
  indexes : List Index
  entities : List Entity
  lastId : Int
  dropped : List String
  created : Nat

namespace Memory

/-- The store without contents. -/
def empty : Memory := ⟨[], [], [], 0, [], 0⟩

/-- A unique index on the key alone exists. -/
def keyUnique (m : Memory) : Bool := m.indexes.any (·.isUniqueOn Service.keyField)

/-- Replace the first document that satisfies `p`. -/
def replaceFirst (p : Document → Bool) (change : Document → Document) :
    List Document → List Document
  | [] => []
  | d :: rest => if p d then change d :: rest else d :: replaceFirst p change rest

/-- Change the first document that satisfies `p`, if there is one. -/
def update? (m : Memory) (p : Document → Bool) (change : Document → Document) :
    Option (Document × Memory) :=
  (m.documents.find? p).map fun d =>
    (change d, { m with documents := replaceFirst p change m.documents })

/-- Add a document with the next id, without any check. -/
def insert (m : Memory) (key : String) (v : Json) : Document × Memory :=
  let d : Document := ⟨m.lastId + 1, key, v⟩
  (d, { m with documents := m.documents ++ [d], lastId := m.lastId + 1 })

/-- Save a setting: in the document with its id, or in the first document with its key if the
key is unique, or else in a new document. -/
def save (m : Memory) (s : Setting) : Document × Memory :=
  let byId := s.id.bind fun id =>
    m.update? (·.id == id) fun d => ⟨d.id, s.key, s.value⟩
  let byKey := if m.keyUnique then
      m.update? (·.key == s.key) fun d => ⟨d.id, d.key, s.value⟩
    else none
  match byId, byKey with
  -- The id counts first; a setting whose id is not stored goes on as if it had none.
  | some saved, _ => saved
  | none, some saved => saved
  | none, none => m.insert s.key s.value

/-- Remove the document with an id. -/
def remove (m : Memory) (id : Int) : Memory :=
  { m with documents := m.documents.filter (·.id != id) }

/-- Some key is stored more than once. -/
def hasRepeatedKey (docs : List Document) : Bool :=
  !decide (docs.map (·.key)).Nodup

/-- Create an index on a field, unless it is to be unique and some key is stored twice. -/
def createIndex (m : Memory) (field : String) (unique : Bool) : Except Error Unit × Memory :=
  if unique && hasRepeatedKey m.documents then (.error .database, m)
  else
    (.ok (),
      { m with
        indexes := m.indexes ++ [⟨"idx_settings_" ++ field, [field], unique⟩]
        created := m.created + 1 })

/-- Add an index, without any check. -/
def addIndex (m : Memory) (index : Index) : Memory :=
  { m with indexes := m.indexes ++ [index] }

/-- Drop the indexes with a name. -/
def dropIndex (m : Memory) (name : String) : Memory :=
  { m with indexes := m.indexes.filter (·.name != name), dropped := m.dropped ++ [name] }

/-- The keys that are stored, each once and in order. -/
def keys (m : Memory) : List String :=
  Ordered.sort (fun a b => decide (a ≤ b)) (m.documents.map (·.key)).eraseDups

/-- The keys stored more than once, with their ids from the last to the first. -/
def duplicates (m : Memory) : List DuplicateGroup :=
  (m.keys.map fun key =>
    let ids := (m.documents.reverse.filter (·.key == key)).map (·.id)
    ⟨key, ids, ids.length⟩).filter (1 < ·.count)

/-- The store in memory as a backend. -/
def backend : Backend Memory where
  answer m
    | .findSetting key => (.ok (Document.find? key m.documents), m)
    | .listSettings filter => (.ok (Document.list filter m.documents), m)
    | .saveSetting s => let (d, m) := m.save s; (.ok d, m)
    | .removeSetting id => (.ok (), m.remove id)
    | .listIndexes => (.ok m.indexes, m)
    | .dropIndex name => (.ok (), m.dropIndex name)
    | .createIndex field unique => m.createIndex field unique
    | .listDuplicates => (.ok m.duplicates, m)
    | .readEntity kind id => (.ok (m.entities.find? fun e => e.kind == kind && e.id == id), m)
    | .createEntity entity => (.ok (), { m with entities := m.entities ++ [entity] })

end Memory

end SettingStore
