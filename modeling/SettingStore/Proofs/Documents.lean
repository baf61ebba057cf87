import SettingStore.Document
import Mathlib.Data.List.Sort

set_option autoImplicit false

/-! # Finding and listing documents

Both stores keep their documents in the order of the ids (`Document.IdsIncrease`). Then the
document that counts for a key is the one of the key with the lowest id
(`find?_eq_some_iff`), it depends on the documents of the key alone (`find?_congr`), and it is
what the listing for the key begins with (`find?_eq_head?_list`). A listing goes strictly up by
key and then by id (`list_increases`), and by key alone where no key repeats
(`list_keys_increase`). What putting and taking out documents does to the other keys is in
`find?_of_put` and `find?_of_erase`; `reports_groups` says when the repeated keys are reported
exactly.
-/

namespace SettingStore.Document

/-- The documents stand in the order of their ids, and no id occurs twice. -/
def IdsIncrease (docs : List Document) : Prop := docs.Pairwise fun d e => d.id < e.id

/-- A document is known by its id. -/
theorem IdsIncrease.eq_of_id {docs : List Document} (h : IdsIncrease docs) {d e : Document}
    (hd : d ∈ docs) (he : e ∈ docs) (hid : d.id = e.id) : d = e := by
  induction docs with
  | nil => simp at hd
  | cons first rest ih =>
      obtain ⟨hfirst, hrest⟩ := List.pairwise_cons.1 h
      rcases List.mem_cons.1 hd with rfl | hd'
      · rcases List.mem_cons.1 he with rfl | he'
        · rfl
        · have := hfirst e he'
          omega
      · rcases List.mem_cons.1 he with rfl | he'
        · have := hfirst d hd'
          omega
        · exact ih hrest hd' he'

/-- Two lists in the order of the ids are equal if they have the same documents. -/
theorem IdsIncrease.ext {docs docs' : List Document} (h : IdsIncrease docs)
    (h' : IdsIncrease docs') (same : ∀ d, d ∈ docs ↔ d ∈ docs') : docs = docs' := by
  have : Std.Antisymm fun d e : Document => d.id < e.id := ⟨fun d e hde hed => by omega⟩
  have : Std.Irrefl fun d e : Document => d.id < e.id := ⟨fun d => Int.lt_irrefl d.id⟩
  exact List.Pairwise.eq_of_mem_iff h h' same

/-- No id occurs twice. -/
theorem IdsIncrease.nodup_ids {docs : List Document} (h : IdsIncrease docs) :
    (docs.map (·.id)).Nodup :=
  List.pairwise_map.2 (h.imp Int.ne_of_lt)

/-! ## The lowest document -/

theorem lowest?_eq_none_iff {docs : List Document} : lowest? docs = none ↔ docs = [] := by
  cases docs with
  | nil => simp [lowest?]
  | cons d rest =>
      simp only [lowest?, reduceCtorEq, iff_false]
      split
      · simp
      · split <;> simp

/-- The lowest document is one of the documents, and no id is lower. -/
theorem lowest?_spec {docs : List Document} {d : Document} (h : lowest? docs = some d) :
    d ∈ docs ∧ ∀ e ∈ docs, d.id ≤ e.id := by
  induction docs generalizing d with
  | nil => simp [lowest?] at h
  | cons first rest ih =>
      rw [lowest?] at h
      split at h
      · rename_i hrest
        rw [lowest?_eq_none_iff] at hrest
        cases h
        simp [hrest]
      · rename_i low hlow
        obtain ⟨hmem, hle⟩ := ih hlow
        split at h
        · rename_i hfirst
          cases h
          refine ⟨List.mem_cons_self, fun e he => ?_⟩
          rcases List.mem_cons.1 he with rfl | he
          · exact Int.le_refl _
          · exact Int.le_trans hfirst (hle e he)
        · rename_i hfirst
          cases h
          refine ⟨List.mem_cons_of_mem _ hmem, fun e he => ?_⟩
          rcases List.mem_cons.1 he with rfl | he
          · omega
          · exact hle e he

/-! ## Finding -/

theorem find?_eq_none_iff {key : String} {docs : List Document} :
    find? key docs = none ↔ ∀ d ∈ docs, d.key ≠ key := by
  rw [find?, lowest?_eq_none_iff, List.filter_eq_nil_iff]
  simp

/-- What is found for a key is a document of the key, and none of its documents has a lower
id. -/
theorem find?_spec {key : String} {docs : List Document} {d : Document}
    (h : find? key docs = some d) :
    d ∈ docs ∧ d.key = key ∧ ∀ e ∈ docs, e.key = key → d.id ≤ e.id := by
  obtain ⟨hmem, hle⟩ := lowest?_spec h
  rw [List.mem_filter, beq_iff_eq] at hmem
  refine ⟨hmem.1, hmem.2, fun e he hkey => hle e ?_⟩
  rw [List.mem_filter, beq_iff_eq]
  exact ⟨he, hkey⟩

/-- The document of a key with the lowest id is the one that is found. -/
theorem find?_eq_some_iff {key : String} {docs : List Document} (ids : IdsIncrease docs)
    {d : Document} :
    find? key docs = some d ↔
      d ∈ docs ∧ d.key = key ∧ ∀ e ∈ docs, e.key = key → d.id ≤ e.id := by
  refine ⟨find?_spec, ?_⟩
  rintro ⟨hmem, hkey, hle⟩
  cases hfound : find? key docs with
  | none => exact absurd hkey (find?_eq_none_iff.1 hfound d hmem)
  | some e =>
      obtain ⟨hmem', hkey', hle'⟩ := find?_spec hfound
      have h₁ := hle e hmem' hkey'
      have h₂ := hle' d hmem hkey
      rw [ids.eq_of_id hmem' hmem (by omega)]

/-- What is found for a key depends on the documents of that key alone. -/
theorem find?_congr {key : String} {docs docs' : List Document} (ids : IdsIncrease docs)
    (ids' : IdsIncrease docs') (same : ∀ d, d.key = key → (d ∈ docs ↔ d ∈ docs')) :
    find? key docs = find? key docs' := by
  ext d
  rw [find?_eq_some_iff ids, find?_eq_some_iff ids']
  constructor
  · rintro ⟨hmem, hkey, hle⟩
    exact ⟨(same d hkey).1 hmem, hkey, fun e he hk => hle e ((same e hk).2 he) hk⟩
  · rintro ⟨hmem, hkey, hle⟩
    exact ⟨(same d hkey).2 hmem, hkey, fun e he hk => hle e ((same e hk).1 he) hk⟩

/-! ## Keys that do not repeat -/

/-- No key is stored twice. -/
def KeysDistinct (docs : List Document) : Prop := (docs.map (·.key)).Nodup

instance (docs : List Document) : Decidable (KeysDistinct docs) :=
  inferInstanceAs (Decidable (List.Nodup _))

theorem keysDistinct_iff {docs : List Document} (ids : IdsIncrease docs) :
    KeysDistinct docs ↔ ∀ d ∈ docs, ∀ e ∈ docs, d.key = e.key → d = e := by
  induction docs with
  | nil => simp [KeysDistinct]
  | cons first rest ih =>
      obtain ⟨hfirst, hrest⟩ := List.pairwise_cons.1 ids
      have hne : ∀ e ∈ rest, first ≠ e := by
        rintro e he rfl
        have := hfirst _ he
        omega
      rw [KeysDistinct, List.map_cons, List.nodup_cons, ← KeysDistinct, ih hrest]
      constructor
      · rintro ⟨hnot, hall⟩ d hd e he hkey
        rcases List.mem_cons.1 hd with rfl | hd' <;> rcases List.mem_cons.1 he with rfl | he'
        · rfl
        · exact absurd (List.mem_map.2 ⟨e, he', hkey.symm⟩) hnot
        · exact absurd (List.mem_map.2 ⟨d, hd', hkey⟩) hnot
        · exact hall d hd' e he' hkey
      · intro hall
        constructor
        · intro hmem
          obtain ⟨e, he, hkey⟩ := List.mem_map.1 hmem
          exact hne e he (hall first List.mem_cons_self e (List.mem_cons_of_mem _ he) hkey.symm)
        · intro d hd e he hkey
          exact hall d (List.mem_cons_of_mem _ hd) e (List.mem_cons_of_mem _ he) hkey

/-- Where no key repeats, a document is known by its key. -/
theorem KeysDistinct.eq_of_key {docs : List Document} (keys : KeysDistinct docs)
    (ids : IdsIncrease docs) {d e : Document} (hd : d ∈ docs) (he : e ∈ docs)
    (hkey : d.key = e.key) : d = e :=
  (keysDistinct_iff ids).1 keys d hd e he hkey

/-- Where no key repeats, every document is the one that is found for its key. -/
theorem find?_eq_some_iff_of_keysDistinct {docs : List Document} (ids : IdsIncrease docs)
    (keys : KeysDistinct docs) {key : String} {d : Document} :
    find? key docs = some d ↔ d ∈ docs ∧ d.key = key := by
  rw [find?_eq_some_iff ids]
  constructor
  · rintro ⟨hmem, hkey, -⟩
    exact ⟨hmem, hkey⟩
  · rintro ⟨hmem, hkey⟩
    refine ⟨hmem, hkey, fun e he hkey' => ?_⟩
    rw [keys.eq_of_key ids hmem he (hkey.trans hkey'.symm)]

/-! ## Changing documents -/

section Changing

variable {docs docs' : List Document}

/-- Where a document is put in the place of the only one with its key, no key is stored twice. -/
theorem keysDistinct_of_put (ids : IdsIncrease docs) (ids' : IdsIncrease docs')
    (keys : KeysDistinct docs) {saved : Document}
    (mem : ∀ e, e ∈ docs' ↔ e = saved ∨ (e ∈ docs ∧ e.id ≠ saved.id))
    (alone : ∀ e ∈ docs, e.key = saved.key → e.id = saved.id) : KeysDistinct docs' := by
  rw [keysDistinct_iff ids']
  intro d hd e he hkey
  rcases (mem d).1 hd with rfl | ⟨hd, hdid⟩ <;> rcases (mem e).1 he with rfl | ⟨he, heid⟩
  · rfl
  · exact absurd (alone e he hkey.symm) heid
  · exact absurd (alone d hd hkey) hdid
  · exact keys.eq_of_key ids hd he hkey

/-- Then its key has it, and if it replaces no other document, nothing changes for the other
keys. -/
theorem find?_of_put (ids : IdsIncrease docs) (ids' : IdsIncrease docs') (keys : KeysDistinct docs)
    {saved : Document} (mem : ∀ e, e ∈ docs' ↔ e = saved ∨ (e ∈ docs ∧ e.id ≠ saved.id))
    (same : ∀ e ∈ docs, e.key = saved.key ↔ e.id = saved.id) :
    KeysDistinct docs' ∧
      ∀ key, find? key docs' = if key = saved.key then some saved else find? key docs := by
  have keys' := keysDistinct_of_put ids ids' keys mem fun e he => (same e he).1
  refine ⟨keys', fun key => ?_⟩
  by_cases h : key = saved.key
  · rw [if_pos h, find?_eq_some_iff_of_keysDistinct ids' keys']
    exact ⟨(mem saved).2 (Or.inl rfl), h.symm⟩
  · rw [if_neg h]
    refine find?_congr ids' ids fun d hd => ?_
    rw [mem]
    constructor
    · rintro (rfl | ⟨hmem, -⟩)
      · exact absurd hd.symm h
      · exact hmem
    · intro hmem
      refine Or.inr ⟨hmem, fun hid => h ?_⟩
      rw [← hd]
      exact (same d hmem).2 hid

/-- The id is the one of the document that counts for the key, or, if there is none, an id that
is not used. -/
def TakesPlace (docs : List Document) (key : String) (id : Int) : Prop :=
  match find? key docs with
  | some d => id = d.id
  | none => ∀ d ∈ docs, id ≠ d.id

/-- Where no key is stored twice, only the document of the key has the id. -/
theorem TakesPlace.key_iff (ids : IdsIncrease docs) (keys : KeysDistinct docs) {key : String}
    {id : Int} (h : TakesPlace docs key id) {e : Document} (he : e ∈ docs) :
    e.key = key ↔ e.id = id := by
  unfold TakesPlace at h
  cases hfound : find? key docs with
  | none =>
      rw [hfound] at h
      have hnone := find?_eq_none_iff.1 hfound e he
      have hunused : id ≠ e.id := h e he
      constructor
      · intro hkey
        exact absurd hkey hnone
      · intro hid
        exact absurd hid.symm hunused
  | some d =>
      rw [hfound] at h
      obtain ⟨hd, hdkey, -⟩ := find?_spec hfound
      have hid : id = d.id := h
      constructor
      · intro hkey
        rw [keys.eq_of_key ids he hd (hkey.trans hdkey.symm), hid]
      · intro heid
        rw [ids.eq_of_id he hd (heid.trans hid)]
        exact hdkey

/-- A document that is put in the place of its key is the one that counts for it. -/
theorem TakesPlace.found (ids' : IdsIncrease docs') {saved : Document}
    (h : TakesPlace docs saved.key saved.id)
    (mem : ∀ e, e ∈ docs' ↔ e = saved ∨ (e ∈ docs ∧ e.id ≠ saved.id)) :
    find? saved.key docs' = some saved := by
  refine (find?_eq_some_iff ids').2 ⟨(mem saved).2 (Or.inl rfl), rfl, fun e he hkey => ?_⟩
  unfold TakesPlace at h
  rcases (mem e).1 he with rfl | ⟨he, -⟩
  · exact Int.le_refl _
  · cases hfound : find? saved.key docs with
    | none => exact absurd hkey (find?_eq_none_iff.1 hfound e he)
    | some d =>
        rw [hfound] at h
        have hid : saved.id = d.id := h
        rw [hid]
        exact (find?_spec hfound).2.2 e he hkey

/-- Where all documents of a key are taken out, nothing is found for it, and nothing changes
for the other keys. -/
theorem find?_of_erase (ids : IdsIncrease docs) (ids' : IdsIncrease docs') {key : String}
    (mem : ∀ e, e ∈ docs' ↔ e ∈ docs ∧ e.key ≠ key) (other : String) :
    find? other docs' = if other = key then none else find? other docs := by
  by_cases h : other = key
  · rw [if_pos h, find?_eq_none_iff]
    intro d hd
    rw [h]
    exact ((mem d).1 hd).2
  · rw [if_neg h]
    refine find?_congr ids' ids fun d hd => ?_
    rw [mem, hd]
    exact and_iff_left h

end Changing

/-! ## Listing -/

/-- A document passes a filter if it has the key that the filter asks for and its key starts with
the text that the filter asks for. -/
theorem admits_iff {f : Filter} {d : Document} :
    f.admits d = true ↔ (∀ key, f.key = some key → d.key = key) ∧
      ∀ start, f.start = some start → start.toList <+: d.key.toList := by
  rw [Filter.admits, Bool.and_eq_true]
  refine and_congr ?_ ?_
  · cases f.key <;> simp
  · cases f.start <;> simp

theorem mem_list {f : Filter} {docs : List Document} {d : Document} :
    d ∈ list f docs ↔ d ∈ docs ∧ f.admits d = true := by
  rw [list, Ordered.mem_sort, List.mem_filter]

/-- The listing for a key holds its documents. -/
theorem mem_list_key {key : String} {docs : List Document} {d : Document} :
    d ∈ list ⟨some key, none⟩ docs ↔ d ∈ docs ∧ d.key = key := by
  rw [mem_list, admits_iff]
  simp [eq_comm]

/-- A stored document has one of the listed ids exactly if it has the key. -/
theorem mem_ids_list_key {key : String} {docs : List Document} (ids : IdsIncrease docs)
    {d : Document} (hd : d ∈ docs) :
    d.id ∈ (list ⟨some key, none⟩ docs).map (·.id) ↔ d.key = key := by
  rw [List.mem_map]
  constructor
  · rintro ⟨e, he, hid⟩
    obtain ⟨he, hkey⟩ := mem_list_key.1 he
    rw [ids.eq_of_id hd he hid.symm]
    exact hkey
  · intro hkey
    exact ⟨d, mem_list_key.2 ⟨hd, hkey⟩, rfl⟩

/-- Any two documents can be ordered. -/
theorem notAfter_total (d e : Document) : notAfter d e = true ∨ notAfter e d = true := by
  by_cases h : d.key = e.key
  · simp only [notAfter, h, if_true, decide_eq_true_eq]
    omega
  · simp only [notAfter, h, Ne.symm h, if_false, decide_eq_true_eq]
    exact (Std.lt_trichotomy d.key e.key).imp_right fun h' => h'.resolve_left h

/-- The order of listings is transitive. -/
theorem notAfter_trans (d e f : Document) (hde : notAfter d e = true)
    (hef : notAfter e f = true) : notAfter d f = true := by
  rw [notAfter] at hde hef ⊢
  by_cases h₁ : d.key = e.key
  · by_cases h₂ : e.key = f.key
    · simp only [h₁, h₂, if_true, decide_eq_true_eq] at hde hef ⊢
      omega
    · rw [if_neg h₂] at hef
      rw [h₁, if_neg h₂]
      exact hef
  · by_cases h₂ : e.key = f.key
    · rw [← h₂]
      rw [if_neg h₁] at hde ⊢
      exact hde
    · rw [if_neg h₁, decide_eq_true_eq] at hde
      rw [if_neg h₂, decide_eq_true_eq] at hef
      have hlt := String.lt_trans hde hef
      rw [if_neg (String.ne_of_lt hlt), decide_eq_true_eq]
      exact hlt

/-- A listing is in order. -/
theorem list_pairwise (f : Filter) (docs : List Document) :
    (list f docs).Pairwise (notAfter · · = true) :=
  Ordered.sort_pairwise notAfter_total notAfter_trans _

/-- What does not repeat in the documents does not repeat in a listing. -/
theorem nodup_map_list {β : Type} {g : Document → β} {docs : List Document}
    (nodup : (docs.map g).Nodup) (f : Filter) : ((list f docs).map g).Nodup := by
  have hperm := (Ordered.sort_perm notAfter (docs.filter f.admits)).map g
  rw [list, hperm.nodup_iff]
  exact nodup.sublist (List.filter_sublist.map g)

/-- Of two documents in the order of listings, the second one has a greater key or, with the same
key, a greater id. -/
theorem list_increases (f : Filter) {docs : List Document} (ids : IdsIncrease docs) :
    (list f docs).Pairwise fun d e => d.key < e.key ∨ (d.key = e.key ∧ d.id < e.id) := by
  have hids := nodup_map_list ids.nodup_ids f
  refine ((list_pairwise f docs).and (List.pairwise_map.1 hids)).imp ?_
  rintro d e ⟨hle, hne⟩
  by_cases hkey : d.key = e.key
  · simp only [notAfter, hkey, if_true, decide_eq_true_eq] at hle
    exact Or.inr ⟨hkey, by omega⟩
  · simp only [notAfter, hkey, if_false, decide_eq_true_eq] at hle
    exact Or.inl hle

/-- What is found for a key is what its listing begins with. -/
theorem find?_eq_head?_list (key : String) {docs : List Document} (ids : IdsIncrease docs) :
    find? key docs = (list ⟨some key, none⟩ docs).head? := by
  cases hlist : list ⟨some key, none⟩ docs with
  | nil =>
      refine find?_eq_none_iff.2 fun d hd hkey => ?_
      have hmem := mem_list_key.2 ⟨hd, hkey⟩
      rw [hlist] at hmem
      exact List.not_mem_nil hmem
  | cons first rest =>
      have hfirst : first ∈ list ⟨some key, none⟩ docs := hlist ▸ List.mem_cons_self
      obtain ⟨hmem, hfirstkey⟩ := mem_list_key.1 hfirst
      refine (find?_eq_some_iff ids).2 ⟨hmem, hfirstkey, fun e he hkey => ?_⟩
      have hordered := list_pairwise ⟨some key, none⟩ docs
      have hmem := mem_list_key.2 ⟨he, hkey⟩
      rw [hlist] at hordered hmem
      rcases List.mem_cons.1 hmem with rfl | hmem
      · exact Int.le_refl _
      · have hle := (List.pairwise_cons.1 hordered).1 e hmem
        simpa [notAfter, hfirstkey, hkey] using hle

/-- Where no key repeats, the keys of a listing increase. -/
theorem list_keys_increase (f : Filter) {docs : List Document} (keys : KeysDistinct docs) :
    (list f docs).Pairwise fun d e => d.key < e.key := by
  have hkeys := nodup_map_list keys f
  have hboth := (list_pairwise f docs).and (List.pairwise_map.1 hkeys)
  refine hboth.imp fun h => ?_
  simpa [notAfter, h.2] using h.1

/-! ## Repeated keys -/

/-- The ids of a key are those of its documents. -/
theorem mem_ids_of_key {docs : List Document} {key : String} {id : Int} :
    id ∈ (docs.filter (·.key == key)).map (·.id) ↔ ∃ d ∈ docs, d.key = key ∧ d.id = id := by
  simp only [List.mem_map, List.mem_filter, beq_iff_eq, and_assoc]

theorem IdsIncrease.nodup_ids_of_key {docs : List Document} (h : IdsIncrease docs) (key : String) :
    ((docs.filter (·.key == key)).map (·.id)).Nodup :=
  h.nodup_ids.sublist (List.filter_sublist.map _)

/-- One group for each of the keys that has more than one id. -/
def groups (keys : List String) (ids : String → List Int) : List DuplicateGroup :=
  (keys.filter fun key => decide (1 < (ids key).length)).map fun key =>
    ⟨key, ids key, (ids key).length⟩

theorem mem_groups {keys : List String} {ids : String → List Int} {group : DuplicateGroup} :
    group ∈ groups keys ids ↔ (group.key ∈ keys ∧ 1 < (ids group.key).length) ∧
      group.ids = ids group.key ∧ group.count = (ids group.key).length := by
  rw [groups, List.mem_map]
  simp only [List.mem_filter, decide_eq_true_eq]
  constructor
  · rintro ⟨key, hkey, rfl⟩
    exact ⟨hkey, rfl, rfl⟩
  · rintro ⟨hkey, hids, hcount⟩
    refine ⟨group.key, hkey, ?_⟩
    rw [← hcount, ← hids]

/-- The groups are those of the keys that are stored more than once, one for each of them, with
its ids and their number. -/
structure Reports (groups : List DuplicateGroup) (docs : List Document) : Prop where
  keys : (groups.map (·.key)).Nodup
  repeated : ∀ key, (∃ group ∈ groups, group.key = key) ↔
    1 < (docs.filter (·.key == key)).length
  ids : ∀ group ∈ groups, group.ids.Perm ((docs.filter (·.key == group.key)).map (·.id))
  count : ∀ group ∈ groups, group.count = (docs.filter (·.key == group.key)).length

/-- Groups that are made of all stored keys, each with its ids in some order, are reported. -/
theorem reports_groups {keys : List String} {ids : String → List Int} {docs : List Document}
    (nodup : keys.Nodup) (stored : ∀ d ∈ docs, d.key ∈ keys)
    (held : ∀ key, (ids key).Perm ((docs.filter (·.key == key)).map (·.id))) :
    Reports (groups keys ids) docs := by
  have hlength : ∀ key, (ids key).length = (docs.filter (·.key == key)).length := fun key =>
    (held key).length_eq.trans (List.length_map _)
  refine ⟨?_, fun key => ?_, fun group hgroup => ?_, fun group hgroup => ?_⟩
  · have hkeys : (groups keys ids).map (·.key)
        = keys.filter fun key => decide (1 < (ids key).length) := by
      rw [groups, List.map_map]
      exact List.map_id _
    rw [hkeys]
    exact nodup.filter _
  · rw [← hlength]
    constructor
    · rintro ⟨group, hgroup, rfl⟩
      exact (mem_groups.1 hgroup).1.2
    · intro hrepeated
      refine ⟨⟨key, ids key, (ids key).length⟩, mem_groups.2 ⟨⟨?_, hrepeated⟩, rfl, rfl⟩, rfl⟩
      -- A key with ids is the key of some document.
      have hpositive : 0 < (docs.filter (·.key == key)).length := by
        rw [← hlength]
        omega
      obtain ⟨d, hd⟩ := List.exists_mem_of_length_pos hpositive
      rw [List.mem_filter, beq_iff_eq] at hd
      exact hd.2 ▸ stored d hd.1
  · rw [(mem_groups.1 hgroup).2.1]
    exact held group.key
  · rw [(mem_groups.1 hgroup).2.2, hlength]

end SettingStore.Document

/-! ## Indexes -/

namespace SettingStore.Index

theorem leadsWith_iff {index : Index} {field : String} :
    index.leadsWith field = true ↔ ∃ others, index.fields = field :: others := by
  rw [leadsWith, beq_iff_eq, List.head?_eq_some_iff]

theorem isUniqueOn_iff {index : Index} {field : String} :
    index.isUniqueOn field = true ↔ index.unique = true ∧ index.fields = [field] := by
  rw [isUniqueOn, Bool.and_eq_true, Bool.and_eq_true, leadsWith_iff, beq_iff_eq, and_assoc]
  refine and_congr_right fun _ => ?_
  constructor
  · rintro ⟨hlength, others, hfields⟩
    rw [hfields, List.length_cons, Nat.add_eq_right, List.length_eq_zero_iff] at hlength
    rw [hfields, hlength]
  · intro hfields
    rw [hfields]
    exact ⟨rfl, [], rfl⟩

end SettingStore.Index
