import SettingStore.Proofs.Service.Repair

set_option autoImplicit false

/-! # Stores with a unique index

Once there is a unique index on the key and no key is stored twice (`Guarded`), the requests
that the service makes keep it so (`guarded_answer`). Saving a setting under an id is among
them only if the id is not the one of another key (`Owned`), which is so for an id that was
found under the key, and stays so whatever others do in the meantime (`onward_answer`). Where
no other index is unique, a table refuses exactly the settings of `Table.Refuses`, and a store
in memory refuses none (`answer_saveSetting_of_accepts`).
-/

namespace SettingStore

open Document (KeysDistinct find?)

namespace Service

variable {store : Store} {state : store.State}

/-! ## The invariant -/

/-- There is a unique index on the key, and no key is stored twice. -/
structure Guarded (store : Store) (state : store.State) : Prop where
  orderly : store.Orderly state
  unique : HasUniqueIndex store state
  keys : KeysDistinct (store.documents state)

/-- No index is unique but those on the key. -/
def OnlyKeyUnique (store : Store) (state : store.State) : Prop :=
  ∀ index ∈ store.indexes state, index.unique = true → index.isUniqueOn keyField = true

/-- The setting can be saved without giving another key's document to its key. A table sees to
that itself, as long as the id is a number that it can have. -/
def Owned : (store : Store) → store.State → Setting → Prop
  | .memory, m, s => ∀ id, s.id = some id →
      id ≤ m.lastId ∧ ∀ d ∈ m.documents, d.id = id → d.key = s.key
  | .table, _, s => ∀ id, s.id = some id → Word.Signed id

theorem owned_of_none (store : Store) (state : store.State) (key : String) (v : Json) :
    Owned store state ⟨none, key, v⟩ := by
  cases store with
  | memory => exact fun id h => by cases h
  | table => exact fun id h => by cases h

/-- An id that is stored for a key is owned by the key. -/
theorem owned_of_mem (orderly : store.Orderly state) {d : Document}
    (hd : d ∈ store.documents state) (v : Json) : Owned store state ⟨some d.id, d.key, v⟩ := by
  cases store with
  | memory =>
      intro id hid
      cases hid
      refine ⟨Memory.Orderly.bounded orderly d hd, fun e he heid => ?_⟩
      rw [(Memory.Orderly.ids orderly).eq_of_id he hd heid]
  | table =>
      intro id hid
      cases hid
      obtain ⟨row, hrow, rfl⟩ := List.mem_map.1 hd
      exact Table.Orderly.signed orderly row hrow

/-- Which id is owned by which key has nothing to do with the value. -/
theorem Owned.congr {s s' : Setting} (h : Owned store state s) (hid : s'.id = s.id)
    (hkey : s'.key = s.key) : Owned store state s' := by
  cases store with
  | memory =>
      intro id hs'
      rw [hkey]
      exact h id (hid ▸ hs')
  | table => exact fun id hs' => h id (hid ▸ hs')

/-- What stays true whatever calls the service makes. -/
structure Onward (store : Store) (state now : store.State) : Prop where
  owned : ∀ s, Owned store state s → Owned store now s
  entities : store.entity? now = store.entity? state
  only : OnlyKeyUnique store state → OnlyKeyUnique store now

theorem Onward.refl (state : store.State) : Onward store state state :=
  ⟨fun _ h => h, rfl, fun h => h⟩

theorem Onward.trans {state now later : store.State} (h : Onward store state now)
    (h' : Onward store now later) : Onward store state later :=
  ⟨fun s hs => h'.owned s (h.owned s hs), h'.entities.trans h.entities,
    fun only => h'.only (h.only only)⟩

/-! ## Requests -/

/-- The requests that the service makes where there is a unique index on the key. -/
def Harmless (store : Store) (state : store.State) : Request → Prop
  | .saveSetting s => Owned store state s
  | .createIndex field unique => field = keyField ∧ unique = true
  | .dropIndex _ => False
  | .createEntity _ => False
  | _ => True

theorem Guarded.saveSetting (guarded : Guarded store state) {s : Setting}
    (owned : Owned store state s) :
    Guarded store (store.backend.answer state (.saveSetting s)).2 := by
  have orderly := Store.orderly_answer guarded.orderly (.saveSetting s)
  have hunique : HasUniqueIndex store (store.backend.answer state (.saveSetting s)).2 := by
    unfold HasUniqueIndex
    rw [Store.indexes_saveSetting guarded.orderly]
    exact guarded.unique
  refine ⟨orderly, hunique, ?_⟩
  cases store with
  | memory =>
      have howned : ∀ e ∈ Memory.documents state, s.id = some e.id → e.key = s.key :=
        fun e he hid => (owned e.id hid).2 e he rfl
      exact Memory.keysDistinct_save howned guarded.orderly guarded.keys
        (any_isUniqueOn_iff.2 guarded.unique)
  | table => exact Table.Orderly.keysDistinct orderly (Table.hasUniqueKey_iff.2 hunique)

/-- A harmless request leaves the unique index and no key that is stored twice. -/
theorem guarded_answer (guarded : Guarded store state) {request : Request}
    (harmless : Harmless store state request) :
    Guarded store (store.backend.answer state request).2 := by
  cases request with
  | saveSetting s => exact guarded.saveSetting harmless
  | removeSetting id =>
      have orderly := Store.orderly_answer guarded.orderly (.removeSetting id)
      obtain ⟨next, hanswer, hdocs, hindexes⟩ := Store.answer_remove store state id
      rw [hanswer] at orderly ⊢
      refine ⟨orderly, ?_, ?_⟩
      · unfold HasUniqueIndex
        rw [hindexes]
        exact guarded.unique
      · rw [hdocs]
        exact guarded.keys.sublist (List.filter_sublist.map _)
  | createIndex field unique =>
      obtain ⟨hdocs, hindexes⟩ := Store.documents_createIndex store state field unique
      refine ⟨Store.orderly_answer guarded.orderly _, ?_, ?_⟩
      · obtain ⟨index, hindex, hunique⟩ := guarded.unique
        exact ⟨index, hindexes hindex, hunique⟩
      · rw [hdocs]
        exact guarded.keys
  | dropIndex name => exact harmless.elim
  | createEntity entity => exact harmless.elim
  | _ => cases store <;> exact guarded

/-- A harmless request takes no id away from its key. -/
theorem owned_answer (orderly : store.Orderly state) {request : Request}
    (harmless : Harmless store state request) {s : Setting} (owned : Owned store state s) :
    Owned store (store.backend.answer state request).2 s := by
  cases store with
  | table => exact owned
  | memory =>
      intro id hid
      obtain ⟨hle, hkeys⟩ := owned id hid
      cases request with
      | saveSetting saved =>
          have hsaved : ∀ e ∈ Memory.documents state, saved.id = some e.id → e.key = saved.key :=
            fun e he heid => (harmless e.id heid).2 e he rfl
          have hlast := Memory.lastId_le_answer state (.saveSetting saved)
          refine ⟨Int.le_trans hle hlast, fun d hd hdid => ?_⟩
          obtain ⟨e, he, heid, hkey⟩ :=
            Memory.key_of_mem_save hsaved orderly hd (by rw [hdid]; exact hle)
          rw [← hkey]
          exact hkeys e he (heid.trans hdid)
      | removeSetting removed =>
          exact ⟨hle, fun d hd hdid => hkeys d (Memory.mem_remove.1 hd).1 hdid⟩
      | createIndex field unique =>
          show id ≤ (Memory.createIndex state field unique).2.lastId ∧
            ∀ d ∈ (Memory.createIndex state field unique).2.documents, d.id = id → d.key = s.key
          rw [Memory.createIndex]
          split <;> exact ⟨hle, hkeys⟩
      | dropIndex name => exact harmless.elim
      | createEntity entity => exact harmless.elim
      | _ => exact ⟨hle, hkeys⟩

/-- A harmless request adds no unique index but one on the key. -/
theorem onlyKeyUnique_answer (orderly : store.Orderly state) {request : Request}
    (harmless : Harmless store state request) (only : OnlyKeyUnique store state) :
    OnlyKeyUnique store (store.backend.answer state request).2 := by
  cases request with
  | saveSetting s =>
      unfold OnlyKeyUnique
      rw [Store.indexes_saveSetting orderly]
      exact only
  | removeSetting id =>
      obtain ⟨next, hanswer, -, hindexes⟩ := Store.answer_remove store state id
      rw [hanswer]
      unfold OnlyKeyUnique
      rw [hindexes]
      exact only
  | createIndex field unique =>
      obtain ⟨rfl, rfl⟩ := harmless
      intro index hindex hunique
      rcases Store.mem_indexes_createIndex hindex with hold | hnew
      · exact only index hold hunique
      · exact hnew
  | dropIndex name => exact harmless.elim
  | createEntity entity => exact harmless.elim
  | _ => cases store <;> exact only

/-- A harmless request leads onward. -/
theorem onward_answer (guarded : Guarded store state) {request : Request}
    (harmless : Harmless store state request) :
    Guarded store (store.backend.answer state request).2 ∧
      Onward store state (store.backend.answer state request).2 := by
  refine ⟨guarded_answer guarded harmless, fun s hs => owned_answer guarded.orderly harmless hs,
    ?_, onlyKeyUnique_answer guarded.orderly harmless⟩
  refine Store.entity?_answer guarded.orderly request ?_
  rintro entity rfl
  exact harmless.elim

/-! ## Which settings are saved -/

/-- The settings that are not saved although the key is the only thing that is unique. -/
def Refuses : (store : Store) → store.State → Setting → Prop
  | .memory, _, _ => False
  | .table, t, s => t.Refuses s

theorem answer_saveSetting_of_refuses (guarded : Guarded store state) {s : Setting}
    (refuses : Refuses store state s) :
    store.backend.answer state (.saveSetting s) = (.error .database, state) := by
  cases store with
  | memory => exact refuses.elim
  | table =>
      exact Table.save_of_refuses guarded.orderly (Table.hasUniqueKey_iff.2 guarded.unique) refuses

/-- Every other setting is saved, and found again at once. -/
theorem answer_saveSetting_of_accepts (guarded : Guarded store state)
    (only : OnlyKeyUnique store state) {s : Setting} (owned : Owned store state s)
    (accepts : ¬ Refuses store state s) :
    ∃ id, (store.backend.answer state (.saveSetting s)).1 = .ok ⟨id, s.key, s.value⟩ ∧
      find? s.key (store.documents (store.backend.answer state (.saveSetting s)).2)
        = some ⟨id, s.key, store.readBack s.value⟩ := by
  have hsaved : store.backend.answer state (.saveSetting s) ≠ (.error .database, state) := by
    cases store with
    | memory => exact fun h => by cases congrArg Prod.fst h
    | table =>
        have honly : ∀ index ∈ Table.indexes state, index.unique = true →
            index.report.isUniqueOn keyField = true :=
          fun index hindex => only index.report (List.mem_map_of_mem hindex)
        exact Table.save_of_not_refuses guarded.orderly honly
          (Table.hasUniqueKey_iff.2 guarded.unique) owned accepts
  have hguarded := guarded.saveSetting owned
  rcases Store.answer_saveSetting guarded.orderly s with h | ⟨saved, after, h, hsaves⟩
  · exact absurd h hsaved
  · rw [h] at hguarded ⊢
    refine ⟨saved.id, ?_, ?_⟩
    · rw [← hsaves.key, ← hsaves.value]
    · refine (Document.find?_eq_some_iff_of_keysDistinct hguarded.orderly.ids hguarded.keys).2 ?_
      exact ⟨(hsaves.documents _).2 (Or.inl rfl), rfl⟩

end Service

end SettingStore
