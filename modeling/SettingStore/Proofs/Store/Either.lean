import SettingStore.Proofs.Session.LooksUp
import SettingStore.Proofs.Store.Memory
import SettingStore.Proofs.Store.Table

set_option autoImplicit false

/-! # Either store

`Store` names the two stores, and a state of a store shows its documents and indexes. The laws
below are what a session can rely on over either of them: `answer_remove`,
`mem_indexes_dropIndex`, `createIndex_key` and `answer_listDuplicates`. They need a state that
requests lead to from the store without contents (`Store.Reachable`), or what all of these
have in common (`Store.Sound`), or the part of it that has nothing to do with names of indexes
(`Store.Orderly`).
-/

namespace SettingStore

open Document (IdsIncrease KeysDistinct)

/-- The state after some requests. -/
def Backend.after {σ : Type} (backend : Backend σ) (requests : List Request) (state : σ) : σ :=
  requests.foldl (fun state request => (backend.answer state request).2) state

/-- Some requests and then others are all of them in turn. -/
theorem Backend.after_append {σ : Type} (backend : Backend σ) (first second : List Request)
    (state : σ) : backend.after (first ++ second) state
      = backend.after second (backend.after first state) := List.foldl_append

/-- The last request is made on the state after the others. -/
theorem Backend.after_concat {σ : Type} (backend : Backend σ) (before : List Request)
    (request : Request) (state : σ) : backend.after (before ++ [request]) state
      = (backend.answer (backend.after before state) request).2 :=
  backend.after_append before [request] state

/-- What every request preserves, any requests preserve. -/
theorem Backend.kept_after {σ : Type} {backend : Backend σ} {Kept : σ → Prop}
    (kept : ∀ {state}, Kept state → ∀ request, Kept (backend.answer state request).2) {state : σ}
    (h : Kept state) (requests : List Request) : Kept (backend.after requests state) := by
  induction requests generalizing state with
  | nil => exact h
  | cons request rest ih => exact ih (kept h request)

/-- Where no request lowers a number, it is higher after a run than after the beginning of the
run. -/
theorem Backend.after_le_after {σ : Type} {backend : Backend σ} {Kept : σ → Prop} {number : σ → Int}
    (kept : ∀ {state}, Kept state → ∀ request, Kept (backend.answer state request).2)
    (le : ∀ {state}, Kept state → ∀ request,
      number state ≤ number (backend.answer state request).2)
    {state : σ} (h : Kept state) {before requests : List Request} (begins : before <+: requests) :
    number (backend.after before state) ≤ number (backend.after requests state) := by
  obtain ⟨rest, rfl⟩ := begins
  rw [Backend.after_append]
  have hbefore := Backend.kept_after kept h before
  generalize backend.after before state = reached at hbefore
  induction rest generalizing reached with
  | nil => exact Int.le_refl _
  | cons request rest ih =>
      calc number reached
          ≤ number (backend.answer reached request).2 := le hbefore request
        _ ≤ number (backend.after rest (backend.answer reached request).2) :=
            ih _ (kept hbefore request)

/-- One of the two stores. -/
inductive Store where
  | memory
  | table

namespace Store

/-- The states of a store. -/
abbrev State : Store → Type
  | .memory => Memory
  | .table => Table

/-- The store as a backend. -/
def backend : (store : Store) → Backend store.State
  | .memory => Memory.backend
  | .table => Table.backend

/-- The store without contents. -/
def empty : (store : Store) → store.State
  | .memory => Memory.empty
  | .table => Table.empty

/-- The documents in a store, in the order of their ids. -/
def documents : (store : Store) → store.State → List Document
  | .memory, m => m.documents
  | .table, t => t.documents

/-- The indexes that a store reports. -/
def indexes : (store : Store) → store.State → List Index
  | .memory, m => m.indexes
  | .table, t => t.indexes.map (·.report)

/-- The entities in a store. -/
def entities : (store : Store) → store.State → List Entity
  | .memory, m => m.entities
  | .table, t => t.entities

/-- What a store reads back of a value that was saved. -/
def readBack : Store → Json → Json
  | .memory, v => v
  | .table, v => (Json.ofText? v.text).getD .null

/-- The entity of a kind and an id. -/
def entity? : (store : Store) → store.State → EntityKind → EntityId → Option Entity
  | .memory, m, kind, id => m.entities.find? fun e => e.kind == kind && e.id == id
  | .table, t, kind, id => t.entities.find? fun e => e.kind == kind && e.id == id

/-- The states that requests lead to from the store without contents. -/
inductive Reachable (store : Store) : store.State → Prop where
  | empty : Reachable store store.empty
  | answer {state : store.State} (request : Request) (before : Reachable store state) :
      Reachable store (store.backend.answer state request).2

/-! ## What all reachable states have in common -/

/-- What every request preserves, and direct access as well. -/
def Orderly : (store : Store) → store.State → Prop
  | .memory, m => m.Orderly
  | .table, t => t.Orderly

/-- What every request preserves. -/
def Sound : (store : Store) → store.State → Prop
  | .memory, m => m.Sound
  | .table, t => t.Sound

/-- The name of the index is the one that the store gives for the field that it covers. -/
def Named : Store → Index → Prop
  | .memory, index => Memory.Named index
  | .table, index => ∃ original, Table.Named original ∧ index = original.report

variable {store : Store} {state : store.State}

theorem orderly_answer (orderly : store.Orderly state) (request : Request) :
    store.Orderly (store.backend.answer state request).2 := by
  cases store with
  | memory => exact Memory.orderly_answer orderly request
  | table => exact Table.orderly_answer orderly request

theorem Sound.orderly (sound : store.Sound state) : store.Orderly state := by
  cases store with
  | memory => exact Memory.Sound.orderly sound
  | table => exact Table.Sound.orderly sound

theorem sound_answer (sound : store.Sound state) (request : Request) :
    store.Sound (store.backend.answer state request).2 := by
  cases store with
  | memory => exact Memory.sound_answer sound request
  | table => exact Table.sound_answer sound request

theorem Reachable.sound (h : store.Reachable state) : store.Sound state := by
  induction h with
  | empty =>
      cases store with
      | memory => exact Memory.sound_empty
      | table => exact Table.sound_empty
  | answer request _ ih => exact sound_answer ih request

theorem Reachable.after (h : store.Reachable state) (requests : List Request) :
    store.Reachable (store.backend.after requests state) :=
  Backend.kept_after (fun before request => .answer request before) h requests

theorem Orderly.ids (orderly : store.Orderly state) : IdsIncrease (store.documents state) := by
  cases store with
  | memory => exact Memory.Orderly.ids orderly
  | table => exact Table.Orderly.ids orderly

theorem Sound.ids (sound : store.Sound state) : IdsIncrease (store.documents state) :=
  sound.orderly.ids

theorem Sound.named (sound : store.Sound state) :
    ∀ index ∈ store.indexes state, store.Named index := by
  cases store with
  | memory => exact Memory.Sound.named sound
  | table =>
      intro index hindex
      obtain ⟨original, horiginal, rfl⟩ := List.mem_map.1 hindex
      exact ⟨original, Table.Sound.named sound original horiginal, rfl⟩

/-- Every index covers one field. -/
theorem Named.fields {index : Index} (h : store.Named index) :
    ∃ field, index.fields = [field] := by
  cases store with
  | memory =>
      obtain ⟨field, -, hfields⟩ := h
      exact ⟨field, hfields⟩
  | table =>
      obtain ⟨original, ⟨column, unique, -, rfl⟩, rfl⟩ := h
      exact ⟨column.label, rfl⟩

/-- The indexes on the key are either plain or make it unique. -/
theorem Named.isUniqueOn {index : Index} (h : store.Named index) {field : String}
    (hleads : index.leadsWith field = true) (hunique : index.unique = true) :
    index.isUniqueOn field = true := by
  obtain ⟨only, hfields⟩ := h.fields
  obtain ⟨others, hothers⟩ := Index.leadsWith_iff.1 hleads
  rw [hfields] at hothers
  refine Index.isUniqueOn_iff.2 ⟨hunique, ?_⟩
  rw [hfields, (List.cons.inj hothers).1]

/-! ## Answers -/

theorem answer_listIndexes (store : Store) (state : store.State) :
    store.backend.answer state .listIndexes = (.ok (store.indexes state), state) := by
  cases store <;> rfl

theorem answer_findSetting (store : Store) (state : store.State) (key : String) :
    store.backend.answer state (.findSetting key)
      = (.ok (Document.find? key (store.documents state)), state) := by
  cases store <;> rfl

theorem answer_listSettings (store : Store) (state : store.State) (filter : Filter) :
    store.backend.answer state (.listSettings filter)
      = (.ok (Document.list filter (store.documents state)), state) := by
  cases store <;> rfl

theorem knows (store : Store) (state : store.State) :
    store.backend.Knows state (store.entity? state) := by
  intro kind id
  cases store <;> rfl

/-- Only creating an entity changes which entities there are. -/
theorem entity?_answer (orderly : store.Orderly state) (request : Request)
    (h : ∀ entity, request ≠ .createEntity entity) :
    store.entity? (store.backend.answer state request).2 = store.entity? state := by
  cases request with
  | createEntity entity => exact absurd rfl (h entity)
  | saveSetting s =>
      funext kind id
      cases store with
      | memory =>
          show List.find? _ (Memory.save state s).2.entities = _
          rw [Memory.save_entities]
          rfl
      | table =>
          show List.find? _ (Table.save state s).2.entities = _
          rw [Table.save_entities orderly]
          rfl
  | dropIndex name =>
      cases store with
      | memory => rfl
      | table =>
          show Store.table.entity? (Table.dropIndex state name).2 = _
          rcases Table.dropIndex_cases state name with ⟨-, h⟩ | ⟨-, h⟩
          · rw [h]
          · rw [h]
            rfl
  | createIndex field unique =>
      cases store with
      | memory =>
          show Store.memory.entity? (Memory.createIndex state field unique).2 = _
          rw [Memory.createIndex]
          split <;> rfl
      | table =>
          show Store.table.entity? (Table.createIndex state field unique).2 = _
          rcases Table.createIndex_cases state field unique with
            ⟨e, h⟩ | ⟨column, -, ⟨-, h⟩ | ⟨-, h⟩⟩
          · rw [h]
          · rw [h]
            rfl
          · rw [h]
            rfl
  | _ => cases store <;> rfl

theorem isSome_find?_append_singleton (p : Entity → Bool) (entities : List Entity)
    (entity : Entity) :
    ((entities ++ [entity]).find? p).isSome = ((entities.find? p).isSome || p entity) := by
  rw [List.find?_append, Option.isSome_or, List.find?_cons]
  cases p entity <;> rfl

/-- A created entity can be looked up, and so can all that were there before. -/
theorem isSome_entity?_createEntity (store : Store) (state : store.State) (entity : Entity)
    (kind : EntityKind) (id : EntityId) :
    (store.entity? (store.backend.answer state (.createEntity entity)).2 kind id).isSome
      = ((store.entity? state kind id).isSome || (entity.kind == kind && entity.id == id)) := by
  cases store with
  | memory => exact isSome_find?_append_singleton _ _ _
  | table =>
      show (((state.entities.filter _) ++ [entity]).find? _).isSome
        = ((state.entities.find? _).isSome || _)
      rw [Bool.eq_iff_iff, Bool.or_eq_true, List.find?_isSome, List.find?_isSome]
      constructor
      · rintro ⟨e, he, hmatch⟩
        rcases List.mem_append.1 he with he | he
        · exact Or.inl ⟨e, (List.mem_filter.1 he).1, hmatch⟩
        · rw [List.mem_singleton.1 he] at hmatch
          exact Or.inr hmatch
      · rintro (⟨e, he, hmatch⟩ | hmatch)
        · by_cases hsame : (e.kind == entity.kind && e.id == entity.id) = true
          · -- The entity takes the place of the one that was found before.
            refine ⟨entity, List.mem_append_right _ List.mem_cons_self, ?_⟩
            simp only [Bool.and_eq_true, beq_iff_eq] at hsame hmatch ⊢
            exact ⟨hsame.1.symm.trans hmatch.1, hsame.2.symm.trans hmatch.2⟩
          · refine ⟨e, List.mem_append_left _ (List.mem_filter.2 ⟨he, ?_⟩), hmatch⟩
            rw [Bool.not_eq_true] at hsame
            rw [hsame]
            rfl
        · exact ⟨entity, List.mem_append_right _ List.mem_cons_self, hmatch⟩

/-- Saving and creating entities leave the indexes as they are. -/
theorem indexes_saveSetting (orderly : store.Orderly state) (s : Setting) :
    store.indexes (store.backend.answer state (.saveSetting s)).2 = store.indexes state := by
  cases store with
  | memory => exact Memory.save_indexes state s
  | table => exact congrArg (List.map (·.report)) (Table.save_indexes orderly s)

theorem indexes_createEntity (store : Store) (state : store.State) (entity : Entity) :
    store.indexes (store.backend.answer state (.createEntity entity)).2
      = store.indexes state := by
  cases store <;> rfl

/-- A setting was saved as a document, which replaces at most the one with its id; nothing
else has changed. -/
structure Saves (store : Store) (state : store.State) (s : Setting) (saved : Document)
    (after : store.State) : Prop where
  key : saved.key = s.key
  value : saved.value = s.value
  indexes : store.indexes after = store.indexes state
  entities : store.entities after = store.entities state
  documents : ∀ d, d ∈ store.documents after ↔
    d = ⟨saved.id, s.key, store.readBack s.value⟩ ∨ (d ∈ store.documents state ∧ d.id ≠ saved.id)

/-- Saving a setting either fails without effect or saves it as a document. -/
theorem answer_saveSetting (orderly : store.Orderly state) (s : Setting) :
    store.backend.answer state (.saveSetting s) = (.error .database, state) ∨
      ∃ saved after, store.backend.answer state (.saveSetting s) = (.ok saved, after) ∧
        store.Saves state s saved after := by
  cases store with
  | memory =>
      have hkey := Memory.save_key state s
      have hvalue := Memory.save_value state s
      have hsaved : (⟨(Memory.save state s).1.id, s.key, s.value⟩ : Document)
          = (Memory.save state s).1 := by
        rw [← hkey, ← hvalue]
      refine Or.inr ⟨(Memory.save state s).1, (Memory.save state s).2, rfl, hkey, hvalue,
        Memory.save_indexes state s, Memory.save_entities state s, fun d => ?_⟩
      show d ∈ (Memory.save state s).2.documents ↔
        d = ⟨(Memory.save state s).1.id, s.key, s.value⟩ ∨ _
      rw [hsaved]
      exact Memory.mem_save orderly s
  | table =>
      have hindexes := Table.save_indexes orderly s
      have hentities := Table.save_entities orderly s
      rcases Table.save_cases orderly s with h | ⟨id, t', -, -, h⟩
      · exact Or.inl h
      · obtain ⟨hkey, hvalue, -, hmem⟩ := Table.mem_documents_save orderly h
        rw [h] at hindexes hentities
        have hreported := congrArg (List.map ColumnIndex.report) hindexes
        exact Or.inr ⟨_, _, h, hkey, hvalue, hreported, hentities, hmem⟩

namespace Saves

variable {s : Setting} {saved : Document} {after : store.State}

/-- All documents with other ids are as before. -/
theorem others (h : store.Saves state s saved after) (ids : IdsIncrease (store.documents state))
    (ids' : IdsIncrease (store.documents after)) :
    (store.documents after).filter (·.id != saved.id)
      = (store.documents state).filter (·.id != saved.id) := by
  refine IdsIncrease.ext (ids'.sublist List.filter_sublist) (ids.sublist List.filter_sublist)
    fun d => ?_
  rw [List.mem_filter, List.mem_filter, h.documents, bne_iff_ne]
  constructor
  · rintro ⟨rfl | ⟨hd, -⟩, hne⟩
    · exact absurd rfl hne
    · exact ⟨hd, hne⟩
  · rintro ⟨hd, hne⟩
    exact ⟨Or.inr ⟨hd, hne⟩, hne⟩

end Saves

/-- A setting with the id of the document that counts for its key, if there is one, is saved in
that document or under an id that is not used. -/
theorem takesPlace_saveSetting (orderly : store.Orderly state) {key : String} {w : Json}
    {saved : Document} {after : store.State}
    (h : store.backend.answer state (.saveSetting
      ⟨(Document.find? key (store.documents state)).map (·.id), key, w⟩) = (.ok saved, after)) :
    Document.TakesPlace (store.documents state) key saved.id := by
  cases store with
  | memory =>
      have hsaved : (Memory.save state ⟨(Document.find? key (Memory.documents state)).map (·.id),
          key, w⟩).1 = saved := Except.ok.inj (congrArg Prod.fst h)
      rw [← hsaved]
      exact Memory.takesPlace_save orderly key w
  | table => exact Table.takesPlace_save orderly h

/-- Removing takes out the document with the id and nothing else. -/
theorem answer_remove (store : Store) (state : store.State) (id : Int) :
    ∃ state', store.backend.answer state (.removeSetting id) = (.ok (), state') ∧
      store.documents state' = (store.documents state).filter (·.id != id) ∧
      store.indexes state' = store.indexes state := by
  cases store with
  | memory => exact ⟨_, rfl, rfl, rfl⟩
  | table => exact ⟨_, rfl, Table.documents_remove state id, rfl⟩

/-- Removing keeps the entities. -/
theorem entities_remove (store : Store) (state : store.State) (id : Int) :
    store.entities (store.backend.answer state (.removeSetting id)).2 = store.entities state := by
  cases store <;> rfl

/-- The entities that can be looked up are those that there are. -/
theorem entity?_congr {state' : store.State} (h : store.entities state' = store.entities state) :
    store.entity? state' = store.entity? state := by
  funext kind id
  cases store <;> exact congrArg (List.find? _) h

/-- Dropping an index keeps the documents. -/
theorem documents_dropIndex (store : Store) (state : store.State) (name : String) :
    store.documents (store.backend.answer state (.dropIndex name)).2
      = store.documents state := by
  cases store with
  | memory => rfl
  | table =>
      show Table.documents (Table.dropIndex state name).2 = Table.documents state
      rcases Table.dropIndex_cases state name with ⟨-, h⟩ | ⟨-, h⟩
      · rw [h]
      · rw [h]
        rfl

/-- Creating an index keeps the documents and the indexes that there are. -/
theorem documents_createIndex (store : Store) (state : store.State) (field : String)
    (unique : Bool) :
    store.documents (store.backend.answer state (.createIndex field unique)).2
        = store.documents state ∧
      store.indexes state ⊆
        store.indexes (store.backend.answer state (.createIndex field unique)).2 := by
  cases store with
  | memory =>
      show (Memory.createIndex state field unique).2.documents = Memory.documents state ∧
        Memory.indexes state ⊆ (Memory.createIndex state field unique).2.indexes
      rw [Memory.createIndex]
      split
      · exact ⟨rfl, List.Subset.refl _⟩
      · exact ⟨rfl, List.subset_append_left _ _⟩
  | table =>
      show Table.documents (Table.createIndex state field unique).2 = Table.documents state ∧
        (Table.indexes state).map (·.report)
          ⊆ (Table.createIndex state field unique).2.indexes.map (·.report)
      rcases Table.createIndex_cases state field unique with
        ⟨e, h⟩ | ⟨column, -, ⟨-, h⟩ | ⟨-, h⟩⟩
      · rw [h]
        exact ⟨rfl, List.Subset.refl _⟩
      · rw [h]
        exact ⟨rfl, List.Subset.refl _⟩
      · rw [h]
        exact ⟨rfl, List.map_subset _ (List.subset_cons_self _ _)⟩

/-- Where the unique index on the key is to be created, there is no other new one. -/
theorem mem_indexes_createIndex {index : Index}
    (h : index ∈ store.indexes (store.backend.answer state
      (.createIndex Service.keyField true)).2) :
    index ∈ store.indexes state ∨ index.isUniqueOn Service.keyField = true := by
  cases store with
  | memory =>
      rcases Memory.createIndex_unique state Service.keyField with ⟨-, hcreated⟩ | ⟨-, hcreated⟩
      · have h' : index ∈ (Memory.createIndex state Service.keyField true).2.indexes := h
        rw [hcreated] at h'
        refine (List.mem_append.1 h').imp_right fun hnew => ?_
        rw [List.mem_singleton.1 hnew]
        rfl
      · have h' : index ∈ (Memory.createIndex state Service.keyField true).2.indexes := h
        rw [hcreated] at h'
        exact Or.inl h'
  | table =>
      have h' : index ∈
          (Table.createIndex state Service.keyField true).2.indexes.map (·.report) := h
      rcases Table.createIndex_cases state Service.keyField true with
        ⟨e, hcreated⟩ | ⟨column, hcolumn, ⟨-, hcreated⟩ | ⟨-, hcreated⟩⟩
      · rw [hcreated] at h'
        exact Or.inl h'
      · rw [hcreated] at h'
        exact Or.inl h'
      · rw [hcreated] at h'
        cases hcolumn
        refine (List.mem_cons.1 h').symm.imp_right fun hnew => ?_
        rw [hnew]
        rfl

/-- Dropping an index keeps every index on another field. -/
theorem mem_indexes_dropIndex (sound : store.Sound state) {index other : Index}
    (hindex : store.Named index) (hother : other ∈ store.indexes state)
    (hne : other.fields ≠ index.fields) :
    other ∈ store.indexes (store.backend.answer state (.dropIndex index.name)).2 := by
  cases store with
  | memory => exact Memory.mem_dropIndex_of_fields_ne sound hindex hother hne
  | table =>
      obtain ⟨original, horiginal, rfl⟩ := hindex
      obtain ⟨original', horiginal', rfl⟩ := List.mem_map.1 hother
      refine List.mem_map.2 ⟨original', ?_, rfl⟩
      refine Table.mem_dropIndex_of_columns_ne sound horiginal horiginal' fun heq => hne ?_
      exact congrArg (List.map Column.label) heq

/-- The unique index on the key is created exactly if no key is stored twice; otherwise nothing
happens. -/
theorem createIndex_key (sound : store.Sound state) :
    (KeysDistinct (store.documents state) ∧ ∃ state',
      store.backend.answer state (.createIndex Service.keyField true) = (.ok (), state') ∧
      store.documents state' = store.documents state ∧
      store.indexes state ⊆ store.indexes state' ∧
      ∃ index ∈ store.indexes state', index.isUniqueOn Service.keyField = true) ∨
    (¬ KeysDistinct (store.documents state) ∧
      store.backend.answer state (.createIndex Service.keyField true)
        = (.error .database, state)) := by
  cases store with
  | memory =>
      rcases Memory.createIndex_unique state Service.keyField with ⟨hkeys, h⟩ | ⟨hkeys, h⟩
      · refine Or.inl ⟨hkeys, _, h, rfl, List.subset_append_left _ _, ?_⟩
        exact ⟨_, List.mem_append_right _ List.mem_cons_self, rfl⟩
      · exact Or.inr ⟨hkeys, h⟩
  | table =>
      rcases Table.createIndex_key sound with
        ⟨hkeys, t', h, hunique, hrows, -, hsub, -⟩ | ⟨hkeys, h⟩
      · refine Or.inl ⟨hkeys, t', h, ?_, List.map_subset _ hsub, ?_⟩
        · exact congrArg (List.map Row.document) hrows
        · exact Table.hasUniqueKey_iff.1 hunique
      · exact Or.inr ⟨hkeys, h⟩

/-- The repeated keys are reported exactly. -/
theorem answer_listDuplicates_reports (orderly : store.Orderly state) :
    ∃ groups, store.backend.answer state .listDuplicates = (.ok groups, state) ∧
      Document.Reports groups (store.documents state) := by
  cases store with
  | memory => exact ⟨_, rfl, Memory.reports_duplicates state⟩
  | table =>
      obtain ⟨groups, hanswer, hreports⟩ := Table.reports_duplicates orderly
      exact ⟨groups, Prod.ext hanswer rfl, hreports⟩

/-- The groups are those of the keys that are stored twice. -/
structure Repeats (groups : List DuplicateGroup) (docs : List Document) : Prop where
  ids : ∀ group ∈ groups, group.ids.Perm ((docs.filter (·.key == group.key)).map (·.id))
  complete : ∀ key, 1 < (docs.filter (·.key == key)).length → ∃ group ∈ groups, group.key = key

/-- The groups of the repeated keys are reported, with their ids in some order. -/
theorem answer_listDuplicates (orderly : store.Orderly state) :
    ∃ groups, store.backend.answer state .listDuplicates = (.ok groups, state) ∧
      Repeats groups (store.documents state) := by
  obtain ⟨groups, hanswer, hreports⟩ := answer_listDuplicates_reports orderly
  exact ⟨groups, hanswer, hreports.ids, fun key hkey => (hreports.repeated key).2 hkey⟩

end Store

end SettingStore
