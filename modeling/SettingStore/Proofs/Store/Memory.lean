import SettingStore.Proofs.Documents
import SettingStore.Proofs.Text.Entries
import SettingStore.Store.Memory

set_option autoImplicit false

/-! # Laws of the store in memory

Every request keeps the documents in the order of their ids and no id above the last one given
out (`Memory.Orderly`, `orderly_answer`), and every index on one field that its name tells
(`Memory.Sound`, `sound_answer`). On such a state saving, removing, and the operations on
indexes are described by the documents and indexes that exist afterwards.
-/

namespace SettingStore.Memory

open Document

/-- The index covers one field, and its name tells which. -/
def Named (index : Index) : Prop :=
  ∃ field, index.name = "idx_settings_" ++ field ∧ index.fields = [field]

/-- What every request preserves, and direct access as well. -/
structure Orderly (m : Memory) : Prop where
  ids : IdsIncrease m.documents
  bounded : ∀ d ∈ m.documents, d.id ≤ m.lastId

/-- What every request preserves. -/
structure Sound (m : Memory) : Prop where
  ids : IdsIncrease m.documents
  bounded : ∀ d ∈ m.documents, d.id ≤ m.lastId
  named : ∀ index ∈ m.indexes, Named index

theorem Sound.orderly {m : Memory} (sound : m.Sound) : m.Orderly := ⟨sound.ids, sound.bounded⟩

theorem sound_empty : empty.Sound := by
  refine ⟨List.Pairwise.nil, ?_, ?_⟩
  · intro d hd
    exact absurd hd List.not_mem_nil
  · intro index hindex
    exact absurd hindex List.not_mem_nil

/-! ## Replacing a document -/

section Replace

variable {p : Document → Bool} {change : Document → Document} {docs : List Document}
  {d : Document}

/-- A change that keeps the id keeps all ids in their places. -/
theorem map_id_replaceFirst (found : docs.find? p = some d) (hid : (change d).id = d.id) :
    (replaceFirst p change docs).map (·.id) = docs.map (·.id) := by
  induction docs with
  | nil => rfl
  | cons first rest ih =>
      rw [replaceFirst]
      rw [List.find?_cons] at found
      cases hp : p first with
      | true =>
          rw [hp, Option.some.injEq] at found
          rw [if_pos rfl, List.map_cons, List.map_cons, found, hid]
      | false =>
          rw [hp] at found
          rw [if_neg (by simp), List.map_cons, List.map_cons, ih found]

theorem idsIncrease_replaceFirst (ids : IdsIncrease docs) (found : docs.find? p = some d)
    (hid : (change d).id = d.id) : IdsIncrease (replaceFirst p change docs) := by
  have hmap : (docs.map (·.id)).Pairwise (· < ·) := List.pairwise_map.2 ids
  rw [← map_id_replaceFirst found hid] at hmap
  exact List.pairwise_map.1 hmap

/-- The changed document is there, and all others but the one that it replaces. -/
theorem mem_replaceFirst (ids : IdsIncrease docs) (found : docs.find? p = some d)
    {e : Document} :
    e ∈ replaceFirst p change docs ↔ e = change d ∨ (e ∈ docs ∧ e.id ≠ d.id) := by
  induction docs with
  | nil => simp at found
  | cons first rest ih =>
      obtain ⟨hfirst, hrest⟩ := List.pairwise_cons.1 ids
      rw [replaceFirst]
      rw [List.find?_cons] at found
      cases hp : p first with
      | true =>
          rw [hp, Option.some.injEq] at found
          subst found
          rw [if_pos rfl, List.mem_cons, List.mem_cons]
          -- The documents after the first have greater ids.
          refine or_congr_right ⟨fun he => ⟨Or.inr he, ?_⟩, ?_⟩
          · have := hfirst e he
            omega
          · rintro ⟨rfl | he, hne⟩
            · exact absurd rfl hne
            · exact he
      | false =>
          rw [hp] at found
          have hd : first.id < d.id := hfirst d (List.mem_of_find?_eq_some found)
          rw [if_neg (by simp), List.mem_cons, ih hrest found, List.mem_cons]
          constructor
          · rintro (rfl | h | ⟨he, hne⟩)
            · exact Or.inr ⟨Or.inl rfl, by omega⟩
            · exact Or.inl h
            · exact Or.inr ⟨Or.inr he, hne⟩
          · rintro (h | ⟨rfl | he, hne⟩)
            · exact Or.inr (Or.inl h)
            · exact Or.inl rfl
            · exact Or.inr (Or.inr ⟨he, hne⟩)

end Replace

/-! ## Saving -/

variable {m : Memory}

/-- The id of a setting is the one of a stored document or of none. -/
theorem find?_id_cases (docs : List Document) (id? : Option Int) :
    (∃ e, id? = some e.id ∧ docs.find? (·.id == e.id) = some e) ∨ ∀ e ∈ docs, id? ≠ some e.id := by
  cases id? with
  | none => exact Or.inr fun e _ => by simp
  | some id =>
      cases hfound : docs.find? (·.id == id) with
      | some e =>
          have heid : e.id = id := by simpa using List.find?_some hfound
          rw [← heid] at hfound ⊢
          exact Or.inl ⟨e, rfl, hfound⟩
      | none =>
          refine Or.inr fun e he heq => ?_
          have hne := List.find?_eq_none.1 hfound e he
          rw [Option.some.injEq] at heq
          exact hne (beq_iff_eq.2 heq.symm)

theorem update?_id_eq_none {id? : Option Int} (hnone : ∀ e ∈ m.documents, id? ≠ some e.id)
    (change : Document → Document) :
    (id?.bind fun id => m.update? (·.id == id) change) = none := by
  rw [Option.bind_eq_none_iff]
  intro id hid
  rw [update?, Option.map_eq_none_iff, List.find?_eq_none]
  intro e he heq
  rw [beq_iff_eq] at heq
  exact hnone e he (by rw [hid, heq])

/-- A setting is saved in a stored document, which keeps its id, or in a new one. -/
theorem save_cases (m : Memory) (s : Setting) :
    (∃ p change e, m.documents.find? p = some e ∧ change e = ⟨e.id, s.key, s.value⟩ ∧
      (s.id = some e.id ∨
        (∀ e' ∈ m.documents, s.id ≠ some e'.id) ∧ m.keyUnique = true ∧ e.key = s.key) ∧
      m.save s = (change e, { m with documents := replaceFirst p change m.documents })) ∨
    ((∀ e ∈ m.documents, s.id ≠ some e.id) ∧
      (m.keyUnique = true → ∀ e ∈ m.documents, e.key ≠ s.key) ∧
      m.save s = m.insert s.key s.value) := by
  rcases find?_id_cases m.documents s.id with ⟨e, hs, hfound⟩ | hnone
  · refine Or.inl ⟨_, fun d => ⟨d.id, s.key, s.value⟩, e, hfound, rfl, Or.inl hs, ?_⟩
    simp only [save, update?, hs, Option.bind_some, hfound, Option.map_some]
  · have hbyId := update?_id_eq_none hnone fun d => ⟨d.id, s.key, s.value⟩
    unfold save
    rw [hbyId]
    by_cases hu : m.keyUnique = true
    · rw [if_pos hu, update?]
      cases hfound : m.documents.find? (·.key == s.key) with
      | some e =>
          have hekey : e.key = s.key := by simpa using List.find?_some hfound
          refine Or.inl ⟨_, fun d => ⟨d.id, d.key, s.value⟩, e, hfound, ?_,
            Or.inr ⟨hnone, hu, hekey⟩, rfl⟩
          exact congrArg (Document.mk e.id · s.value) hekey
      | none =>
          refine Or.inr ⟨hnone, fun _ e he => ?_, rfl⟩
          simpa using List.find?_eq_none.1 hfound e he
    · rw [if_neg hu]
      exact Or.inr ⟨hnone, fun h => absurd h hu, rfl⟩

theorem save_key (m : Memory) (s : Setting) : (m.save s).1.key = s.key := by
  rcases save_cases m s with ⟨p, change, e, -, hchange, -, h⟩ | ⟨-, -, h⟩
  · rw [h, hchange]
  · rw [h, insert]

theorem save_value (m : Memory) (s : Setting) : (m.save s).1.value = s.value := by
  rcases save_cases m s with ⟨p, change, e, -, hchange, -, h⟩ | ⟨-, -, h⟩
  · rw [h, hchange]
  · rw [h, insert]

theorem save_indexes (m : Memory) (s : Setting) : (m.save s).2.indexes = m.indexes := by
  rcases save_cases m s with ⟨p, change, e, -, -, -, h⟩ | ⟨-, -, h⟩
  · rw [h]
  · rw [h, insert]

theorem save_entities (m : Memory) (s : Setting) : (m.save s).2.entities = m.entities := by
  rcases save_cases m s with ⟨p, change, e, -, -, -, h⟩ | ⟨-, -, h⟩
  · rw [h]
  · rw [h, insert]

/-- A setting that names a stored document is saved in that document. -/
theorem save_of_id {s : Setting} {e : Document} (he : e ∈ m.documents) (hs : s.id = some e.id) :
    (m.save s).1 = ⟨e.id, s.key, s.value⟩ ∧ (m.save s).2.lastId = m.lastId := by
  rcases save_cases m s with ⟨p, change, e', -, hchange, hid, h⟩ | ⟨hnone, -, -⟩
  · have heq : e'.id = e.id := by
      rcases hid with hid | ⟨hnone, -⟩
      · exact Option.some.inj (hid.symm.trans hs)
      · exact absurd hs (hnone e he)
    rw [h, hchange, heq]
    exact ⟨rfl, rfl⟩
  · exact absurd hs (hnone e he)

/-- A setting without an id gets the next one, if its key is not stored or need not be
unique. -/
theorem save_new {s : Setting} (hs : s.id = none)
    (hkey : m.keyUnique = true → ∀ e ∈ m.documents, e.key ≠ s.key) :
    m.save s = m.insert s.key s.value := by
  rcases save_cases m s with ⟨p, change, e, hfound, -, hid, -⟩ | ⟨-, -, h⟩
  · rcases hid with hid | ⟨-, hunique, hekey⟩
    · rw [hs] at hid
      exact absurd hid (by simp)
    · exact absurd hekey (hkey hunique e (List.mem_of_find?_eq_some hfound))
  · exact h

/-- A setting with the id of the document that counts for its key, if there is one, is saved in
that document or under an id that is not used. -/
theorem takesPlace_save (orderly : m.Orderly) (key : String) (w : Json) :
    TakesPlace m.documents key (m.save ⟨(find? key m.documents).map (·.id), key, w⟩).1.id := by
  unfold TakesPlace
  cases hfound : find? key m.documents with
  | some d =>
      have hsaved := (save_of_id (find?_spec hfound).1 (s := ⟨some d.id, key, w⟩) rfl).1
      show (m.save ⟨some d.id, key, w⟩).1.id = d.id
      rw [hsaved]
  | none =>
      have hnone := find?_eq_none_iff.1 hfound
      have hinsert := save_new (m := m) (s := ⟨none, key, w⟩) rfl fun _ => hnone
      intro d hd
      have := orderly.bounded d hd
      show (m.save ⟨none, key, w⟩).1.id ≠ d.id
      rw [hinsert, insert]
      show m.lastId + 1 ≠ d.id
      omega

/-- After saving, the saved document is there, and all others but one that it replaces. -/
theorem mem_save (orderly : m.Orderly) (s : Setting) {e : Document} :
    e ∈ (m.save s).2.documents ↔
      e = (m.save s).1 ∨ (e ∈ m.documents ∧ e.id ≠ (m.save s).1.id) := by
  rcases save_cases m s with ⟨p, change, d, hfound, hchange, -, h⟩ | ⟨-, -, h⟩
  · rw [h]
    show e ∈ replaceFirst p change m.documents ↔ e = change d ∨ e ∈ m.documents ∧ e.id ≠ _
    rw [mem_replaceFirst orderly.ids hfound, hchange]
  · rw [h, insert]
    simp only [List.mem_append, List.mem_singleton]
    rw [or_comm]
    refine or_congr_right ⟨fun he => ⟨he, ?_⟩, And.left⟩
    -- The new id is above all others.
    have := orderly.bounded e he
    omega

/-- A document with the next id comes after all others. -/
theorem orderly_insert (orderly : m.Orderly) (key : String) (v : Json) :
    (m.insert key v).2.Orderly := by
  rw [insert]
  constructor
  · refine List.pairwise_append.2 ⟨orderly.ids, List.pairwise_singleton _ _, ?_⟩
    intro e he d hd
    have := orderly.bounded e he
    rw [List.mem_singleton.1 hd]
    show e.id < m.lastId + 1
    omega
  · intro e he
    rcases List.mem_append.1 he with he | he
    · have := orderly.bounded e he
      show e.id ≤ m.lastId + 1
      omega
    · rw [List.mem_singleton.1 he]

theorem orderly_save (orderly : m.Orderly) (s : Setting) : (m.save s).2.Orderly := by
  rcases save_cases m s with ⟨p, change, d, hfound, hchange, -, h⟩ | ⟨-, -, h⟩
  · have hid : (change d).id = d.id := by rw [hchange]
    rw [h]
    refine ⟨idsIncrease_replaceFirst orderly.ids hfound hid, ?_⟩
    intro e he
    rcases (mem_replaceFirst orderly.ids hfound).1 he with rfl | ⟨he, -⟩
    · rw [hid]
      exact orderly.bounded d (List.mem_of_find?_eq_some hfound)
    · exact orderly.bounded e he
  · rw [h]
    exact orderly_insert orderly s.key s.value

theorem sound_save (sound : m.Sound) (s : Setting) : (m.save s).2.Sound := by
  have orderly := orderly_save sound.orderly s
  refine ⟨orderly.ids, orderly.bounded, ?_⟩
  rw [save_indexes]
  exact sound.named

/-! ## Saving under an id that is not the one of another key -/

section Owned

variable {s : Setting} (owned : ∀ e ∈ m.documents, s.id = some e.id → e.key = s.key)
include owned

/-- A setting is saved with a new id, or in a document that has its key already. -/
theorem save_owned : ((m.save s).1.id = m.lastId + 1 ∧
      (m.keyUnique = true → ∀ e ∈ m.documents, e.key ≠ s.key)) ∨
    ∃ e ∈ m.documents, e.id = (m.save s).1.id ∧ e.key = s.key := by
  rcases save_cases m s with ⟨p, change, e, hfound, hchange, hid, h⟩ | ⟨-, hnew, h⟩
  · have he := List.mem_of_find?_eq_some hfound
    have hkey : e.key = s.key := by
      rcases hid with hid | ⟨-, -, hkey⟩
      · exact owned e he hid
      · exact hkey
    refine Or.inr ⟨e, he, ?_, hkey⟩
    rw [h, hchange]
  · refine Or.inl ⟨?_, hnew⟩
    rw [h, insert]

/-- Saving changes the key of no document. -/
theorem key_of_mem_save (orderly : m.Orderly) {d : Document}
    (hd : d ∈ (m.save s).2.documents) (hid : d.id ≤ m.lastId) :
    ∃ e ∈ m.documents, e.id = d.id ∧ e.key = d.key := by
  rcases (mem_save orderly s).1 hd with rfl | ⟨hd, -⟩
  · rcases save_owned owned with ⟨hnew, -⟩ | ⟨e, he, heid, hkey⟩
    · omega
    · exact ⟨e, he, heid, hkey.trans (save_key m s).symm⟩
  · exact ⟨d, hd, rfl, rfl⟩

/-- Where the key is unique, no key is stored twice after saving. -/
theorem keysDistinct_save (orderly : m.Orderly) (keys : KeysDistinct m.documents)
    (unique : m.keyUnique = true) : KeysDistinct (m.save s).2.documents := by
  refine keysDistinct_of_put orderly.ids (orderly_save orderly s).ids keys
    (fun e => mem_save orderly s) fun e he hkey => ?_
  rw [save_key] at hkey
  rcases save_owned owned with ⟨-, hnew⟩ | ⟨d, hd, hdid, hdkey⟩
  · exact absurd hkey (hnew unique e he)
  · rw [keys.eq_of_key orderly.ids he hd (hkey.trans hdkey.symm), hdid]

end Owned

/-! ## Removing -/

theorem mem_remove {id : Int} {e : Document} :
    e ∈ (m.remove id).documents ↔ e ∈ m.documents ∧ e.id ≠ id := by
  rw [remove, List.mem_filter, bne_iff_ne]

theorem orderly_remove (orderly : m.Orderly) (id : Int) : (m.remove id).Orderly := by
  refine ⟨orderly.ids.sublist List.filter_sublist, ?_⟩
  intro e he
  exact orderly.bounded e (mem_remove.1 he).1

theorem sound_remove (sound : m.Sound) (id : Int) : (m.remove id).Sound := by
  have orderly := orderly_remove sound.orderly id
  exact ⟨orderly.ids, orderly.bounded, sound.named⟩

/-! ## Indexes -/

theorem hasRepeatedKey_eq_false_iff {docs : List Document} :
    hasRepeatedKey docs = false ↔ KeysDistinct docs := by
  rw [hasRepeatedKey, Bool.not_eq_false', decide_eq_true_eq, KeysDistinct]

/-- A unique index is created exactly if no key is stored twice; otherwise nothing happens. -/
theorem createIndex_unique (m : Memory) (field : String) :
    (KeysDistinct m.documents ∧
      m.createIndex field true = (.ok (),
        { m with
          indexes := m.indexes ++ [⟨"idx_settings_" ++ field, [field], true⟩]
          created := m.created + 1 })) ∨
    (¬ KeysDistinct m.documents ∧ m.createIndex field true = (.error .database, m)) := by
  rw [createIndex, Bool.true_and, ← hasRepeatedKey_eq_false_iff]
  cases h : hasRepeatedKey m.documents with
  | false => exact Or.inl ⟨rfl, rfl⟩
  | true => exact Or.inr ⟨by simp, rfl⟩

theorem orderly_createIndex (orderly : m.Orderly) (field : String) (unique : Bool) :
    (m.createIndex field unique).2.Orderly := by
  rw [createIndex]
  split
  · exact orderly
  · exact ⟨orderly.ids, orderly.bounded⟩

theorem sound_createIndex (sound : m.Sound) (field : String) (unique : Bool) :
    (m.createIndex field unique).2.Sound := by
  rw [createIndex]
  split
  · exact sound
  · refine ⟨sound.ids, sound.bounded, ?_⟩
    intro index hindex
    rcases List.mem_append.1 hindex with hindex | hindex
    · exact sound.named index hindex
    · rw [List.mem_singleton.1 hindex]
      exact ⟨field, rfl, rfl⟩

theorem sound_dropIndex (sound : m.Sound) (name : String) : (m.dropIndex name).Sound := by
  refine ⟨sound.ids, sound.bounded, ?_⟩
  intro index hindex
  exact sound.named index (List.mem_filter.1 hindex).1

/-- Dropping an index keeps every index on another field. -/
theorem mem_dropIndex_of_fields_ne (sound : m.Sound) {index other : Index}
    (hindex : Named index) (hother : other ∈ m.indexes) (hne : other.fields ≠ index.fields) :
    other ∈ (m.dropIndex index.name).indexes := by
  obtain ⟨field, hname, hfields⟩ := hindex
  obtain ⟨field', hname', hfields'⟩ := sound.named other hother
  rw [dropIndex, List.mem_filter, bne_iff_ne]
  refine ⟨hother, fun heq => hne ?_⟩
  rw [hname, hname', String.append_right_inj] at heq
  rw [hfields, hfields', heq]

/-! ## Repeated keys -/

theorem mem_keys {key : String} : key ∈ m.keys ↔ ∃ d ∈ m.documents, d.key = key := by
  rw [keys, Ordered.mem_sort, List.mem_eraseDups, List.mem_map]

theorem nodup_keys (m : Memory) : m.keys.Nodup :=
  (Ordered.sort_perm _ _).nodup_iff.2 (Text.nodup_eraseDups _)

/-- The groups are made of all keys, each with its ids from the last to the first. -/
theorem duplicates_eq (m : Memory) :
    m.duplicates
      = groups m.keys fun key => (m.documents.reverse.filter (·.key == key)).map (·.id) := by
  rw [duplicates, List.filter_map]
  rfl

/-- The ids of a key from the last to the first are its ids. -/
theorem ids_reverse_perm (m : Memory) (key : String) :
    ((m.documents.reverse.filter (·.key == key)).map (·.id)).Perm
      ((m.documents.filter (·.key == key)).map (·.id)) := by
  rw [List.filter_reverse]
  exact (List.reverse_perm _).map _

theorem reports_duplicates (m : Memory) : Reports m.duplicates m.documents := by
  rw [duplicates_eq]
  exact reports_groups m.nodup_keys (fun d hd => mem_keys.2 ⟨d, hd, rfl⟩) m.ids_reverse_perm

/-! ## Requests -/

theorem orderly_answer (orderly : m.Orderly) (request : Request) :
    (backend.answer m request).2.Orderly := by
  cases request with
  | saveSetting s => exact orderly_save orderly s
  | removeSetting id => exact orderly_remove orderly id
  | dropIndex name => exact ⟨orderly.ids, orderly.bounded⟩
  | createIndex field unique => exact orderly_createIndex orderly field unique
  | createEntity entity => exact ⟨orderly.ids, orderly.bounded⟩
  | _ => exact orderly

theorem sound_answer (sound : m.Sound) (request : Request) :
    (backend.answer m request).2.Sound := by
  cases request with
  | saveSetting s => exact sound_save sound s
  | removeSetting id => exact sound_remove sound id
  | dropIndex name => exact sound_dropIndex sound name
  | createIndex field unique => exact sound_createIndex sound field unique
  | createEntity entity => exact ⟨sound.ids, sound.bounded, sound.named⟩
  | _ => exact sound

/-- The store in memory gives the next number to a new document, or no document gets a new id. -/
theorem ids_answer (m : Memory) (request : Request) :
    ((backend.answer m request).2.lastId = m.lastId ∧
      ((backend.answer m request).2.documents.map (·.id)).Sublist (m.documents.map (·.id))) ∨
    ((backend.answer m request).2.lastId = m.lastId + 1 ∧
      (backend.answer m request).2.documents.map (·.id)
        = m.documents.map (·.id) ++ [m.lastId + 1]) := by
  cases request with
  | saveSetting s =>
      show ((m.save s).2.lastId = _ ∧ ((m.save s).2.documents.map _).Sublist _) ∨
        ((m.save s).2.lastId = _ ∧ (m.save s).2.documents.map _ = _)
      rcases save_cases m s with ⟨p, change, e, hfound, hchange, -, h⟩ | ⟨-, -, h⟩
      · have hids : (replaceFirst p change m.documents).map (·.id) = m.documents.map (·.id) :=
          map_id_replaceFirst hfound (by rw [hchange])
        rw [h]
        exact Or.inl ⟨rfl, by rw [hids]⟩
      · rw [h, insert]
        exact Or.inr ⟨rfl, List.map_append⟩
  | removeSetting id => exact Or.inl ⟨rfl, List.filter_sublist.map _⟩
  | createIndex field unique =>
      apply Or.inl
      show (m.createIndex field unique).2.lastId = _ ∧
        ((m.createIndex field unique).2.documents.map _).Sublist _
      rw [createIndex]
      split <;> exact ⟨rfl, List.Sublist.refl _⟩
  | _ => exact Or.inl ⟨rfl, List.Sublist.refl _⟩

/-- No request lowers the last id. -/
theorem lastId_le_answer (m : Memory) (request : Request) :
    m.lastId ≤ (backend.answer m request).2.lastId := by
  rcases ids_answer m request with ⟨h, -⟩ | ⟨h, -⟩ <;> omega

end SettingStore.Memory
