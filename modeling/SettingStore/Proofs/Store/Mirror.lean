import SettingStore.Proofs.Json.Storable
import SettingStore.Proofs.Store.Either

set_option autoImplicit false

/-! # The table store next to the store in memory

A table mirrors a store in memory if both hold the same documents under the same count of ids,
the same entities exist, and all indexes there are make the key unique (`Mirrors`). Whatever
the service asks of the two, saving, removing and creating the unique index, has the same
answer and leads to stores that mirror each other again, as long as the values can be read
back and a number is left (`Memory.Fits`). What is not the same is how many indexes there are
and what they are called, and in which order the ids of a repeated key are reported.
-/

namespace SettingStore

open Document (IdsIncrease KeysDistinct)

/-! ## What a table can hold -/

/-- Either store reads such a value back as it was saved. -/
theorem Store.readBack_of_storable (store : Store) {v : Json} (h : v.Storable) :
    store.readBack v = v := by
  cases store with
  | memory => rfl
  | table =>
      show (Json.ofText? v.text).getD .null = v
      rw [h.read, Option.getD_some]

/-- A table could hold the documents and has a number for each. -/
structure Memory.Fits (m : Memory) : Prop where
  storable : ∀ d ∈ m.documents, d.value.Storable
  numbered : m.lastId ≤ Word.maxSigned

/-- A setting that was saved in a store that fits has a value that can be read back. -/
theorem Memory.Fits.saved {m : Memory} {s : Setting} (fits : (m.save s).2.Fits)
    (orderly : m.Orderly) : s.value.Storable := by
  have hstorable := fits.storable (m.save s).1 ((Memory.mem_save orderly s).2 (Or.inl rfl))
  rw [Memory.save_value] at hstorable
  exact hstorable

/-! ## The relation -/

/-- The table holds what the store in memory holds. -/
structure Mirrors (m : Memory) (t : Table) : Prop where
  memory : Store.memory.Sound m
  table : Store.table.Sound t
  documents : t.documents = m.documents
  counted : t.highest = m.lastId
  entities : ∀ kind id, (Store.memory.entity? m kind id).isSome
    = (Store.table.entity? t kind id).isSome
  unique : ∀ index ∈ m.indexes, index.isUniqueOn Service.keyField = true
  uniqueReported : ∀ index ∈ t.indexes, index.report.isUniqueOn Service.keyField = true
  indexed : m.keyUnique = t.hasUniqueKey

namespace Mirrors

variable {m : Memory} {t : Table}

theorem empty : Mirrors Memory.empty Table.empty := by
  refine ⟨Memory.sound_empty, Table.sound_empty, rfl, rfl, fun kind id => rfl, ?_, ?_, rfl⟩
  · intro index hindex
    exact absurd hindex List.not_mem_nil
  · intro index hindex
    exact absurd hindex List.not_mem_nil

/-- An entity exists in both stores after it was created in both. -/
theorem createEntity (h : Mirrors m t) (entity : Entity) :
    Mirrors (Memory.backend.answer m (.createEntity entity)).2
      (Table.backend.answer t (.createEntity entity)).2 := by
  refine ⟨Memory.sound_answer h.memory _, Table.sound_answer h.table _, h.documents, h.counted,
    fun kind id => ?_, h.unique, h.uniqueReported, h.indexed⟩
  have hmemory := Store.isSome_entity?_createEntity .memory m entity kind id
  have htable := Store.isSome_entity?_createEntity .table t entity kind id
  rw [h.entities kind id] at hmemory
  exact hmemory.trans htable.symm

/-! ## Saving -/

theorem onlyKey (h : Mirrors m t) : ∀ index ∈ t.indexes, index.unique = true →
    index.report.isUniqueOn Service.keyField = true :=
  fun index hindex _ => h.uniqueReported index hindex

theorem informed (h : Mirrors m t) : t.keyUnique = true → t.hasUniqueKey = true := by
  have hinformed := Table.Sound.informed h.table
  intro hknown
  rw [← hinformed]
  exact hknown

/-- Where both stores save a setting as the same document and have counted alike, they hold the
same documents afterwards. -/
theorem of_save (h : Mirrors m t) {s : Setting} (storable : s.value.Storable) {t' : Table}
    (hsave : t.save s = (.ok (m.save s).1, t')) (hcounted : t'.highest = (m.save s).2.lastId) :
    Mirrors (m.save s).2 t' := by
  have hsound := Table.sound_save h.table s
  have hindexes := Table.save_indexes h.table.orderly s
  have hentities : Store.memory.entity? (m.save s).2 = Store.memory.entity? m :=
    Store.entity?_answer h.memory.orderly (.saveSetting s) fun _ heq => by cases heq
  have hentities' : Store.table.entity? (t.save s).2 = Store.table.entity? t :=
    Store.entity?_answer h.table.orderly (.saveSetting s) fun _ heq => by cases heq
  obtain ⟨hkey, hvalue, -, hmem⟩ := Table.mem_documents_save h.table.orderly hsave
  rw [hsave] at hsound hindexes hentities'
  have hsaved : (⟨(m.save s).1.id, s.key, (Json.ofText? s.value.text).getD .null⟩ : Document)
      = (m.save s).1 := by
    rw [storable.read, Option.getD_some, ← hkey, ← hvalue]
  have hmemory := Memory.sound_save h.memory s
  refine ⟨hmemory, hsound, hsound.ids.ext hmemory.ids fun d => ?_, hcounted, fun kind id => ?_,
    ?_, ?_, ?_⟩
  · rw [hmem, Memory.mem_save h.memory.orderly, hsaved, h.documents]
  · rw [hentities, hentities', h.entities kind id]
  · rw [Memory.save_indexes]
    exact h.unique
  · rw [hindexes]
    exact h.uniqueReported
  · rw [Memory.keyUnique, Memory.save_indexes, Table.hasUniqueKey, hindexes]
    exact h.indexed

/-- A setting that names a stored document of its key is saved in it in both stores. -/
theorem save_of_id (h : Mirrors m t) {s : Setting} {e : Document} (he : e ∈ m.documents)
    (hid : s.id = some e.id) (hkey : e.key = s.key) (fits : (m.save s).2.Fits) :
    ∃ t', t.save s = (.ok (m.save s).1, t') ∧ Mirrors (m.save s).2 t' := by
  obtain ⟨hsaved, hlast⟩ := Memory.save_of_id he hid
  have het : e ∈ t.documents := by
    rw [h.documents]
    exact he
  obtain ⟨t', hsave, hcounted⟩ := Table.save_of_id h.table.orderly h.onlyKey het hid hkey
  rw [← hsaved] at hsave
  refine ⟨t', hsave, h.of_save (fits.saved h.memory.orderly) hsave ?_⟩
  rw [hcounted, hlast, h.counted]

/-- A setting without an id gets the same id in both stores, if its key is not stored or need
not be unique. -/
theorem save_new (h : Mirrors m t) {s : Setting} (hid : s.id = none)
    (hkey : m.keyUnique = true → ∀ e ∈ m.documents, e.key ≠ s.key)
    (fits : (m.save s).2.Fits) :
    ∃ t', t.save s = (.ok (m.save s).1, t') ∧ Mirrors (m.save s).2 t' := by
  have hinsert := Memory.save_new hid hkey
  have hlast : (m.save s).2.lastId = m.lastId + 1 := by rw [hinsert, Memory.insert]
  have hkeyt : t.hasUniqueKey = true → ∀ e ∈ t.documents, e.key ≠ s.key := by
    rw [← h.indexed, h.documents]
    exact hkey
  have hleft : t.highest < Word.maxSigned := by
    have := fits.numbered
    have := h.counted
    omega
  obtain ⟨t', hsave, hcounted⟩ :=
    Table.save_new h.table.orderly h.onlyKey h.informed hid hkeyt hleft
  have hsaved : (m.save s).1 = ⟨t.highest + 1, s.key, s.value⟩ := by
    rw [hinsert, h.counted, Memory.insert]
  rw [← hsaved] at hsave
  refine ⟨t', hsave, h.of_save (fits.saved h.memory.orderly) hsave ?_⟩
  rw [hcounted, hlast, h.counted]

/-! ## Removing and indexes -/

/-- Where the key need not be unique, there are no indexes. -/
theorem indexes_eq_nil (h : Mirrors m t) (hnot : ¬ m.keyUnique = true) :
    m.indexes = [] ∧ t.indexes = [] := by
  have hnot' : ¬ t.hasUniqueKey = true := by
    rw [← h.indexed]
    exact hnot
  constructor
  · refine List.eq_nil_iff_forall_not_mem.2 fun index hindex => hnot ?_
    exact List.any_eq_true.2 ⟨index, hindex, h.unique index hindex⟩
  · refine List.eq_nil_iff_forall_not_mem.2 fun index hindex => hnot' ?_
    exact List.any_eq_true.2 ⟨index, hindex, h.uniqueReported index hindex⟩

theorem remove (h : Mirrors m t) (id : Int) : Mirrors (m.remove id) (t.remove id) := by
  refine ⟨Memory.sound_remove h.memory id, Table.sound_remove h.table id, ?_, h.counted,
    h.entities, h.unique, h.uniqueReported, h.indexed⟩
  rw [Table.documents_remove, h.documents, Memory.remove]

/-- The unique index is created in both stores or in none of them. -/
theorem createIndex (h : Mirrors m t) :
    (m.createIndex Service.keyField true).1 = (t.createIndex Service.keyField true).1 ∧
      Mirrors (m.createIndex Service.keyField true).2
        (t.createIndex Service.keyField true).2 := by
  have hsound := Memory.sound_createIndex h.memory Service.keyField true
  have hsound' := Table.sound_createIndex h.table Service.keyField true
  have hentities : Store.table.entity? (t.createIndex Service.keyField true).2
      = Store.table.entity? t :=
    Store.entity?_answer h.table.orderly (.createIndex Service.keyField true)
      fun _ heq => by cases heq
  rcases Memory.createIndex_unique m Service.keyField with ⟨hkeys, hm⟩ | ⟨hkeys, hm⟩
  · rcases Table.createIndex_key h.table with
      ⟨-, t', ht, hunique, hrows, hhighest, -, hindexes⟩ | ⟨hnot, -⟩
    · rw [hm] at hsound ⊢
      rw [ht] at hsound' hentities ⊢
      refine ⟨rfl, hsound, hsound', ?_, hhighest.trans h.counted, fun kind id => ?_, ?_, ?_, ?_⟩
      · rw [Table.documents, hrows]
        exact h.documents
      · rw [hentities]
        exact h.entities kind id
      · intro index hindex
        rcases List.mem_append.1 hindex with hindex | hindex
        · exact h.unique index hindex
        · rw [List.mem_singleton.1 hindex]
          rfl
      · intro index hindex
        rcases hindexes index hindex with hold | hnew
        · exact h.uniqueReported index hold
        · exact hnew
      · rw [hunique, Memory.keyUnique, List.any_append]
        exact Bool.or_true _
    · rw [h.documents] at hnot
      exact absurd hkeys hnot
  · rcases Table.createIndex_key h.table with ⟨hyes, -⟩ | ⟨-, ht⟩
    · rw [h.documents] at hyes
      exact absurd hyes hkeys
    · rw [hm, ht]
      exact ⟨rfl, h⟩

end Mirrors

end SettingStore
