import Mathlib.Data.List.Induction
import SettingStore.Proofs.Store.Either

set_option autoImplicit false

/-! # Unique indexes that are reported

A store reports its indexes, and callers take it at its word: where a unique index on a field is
reported, no two documents should agree on the field. The table keeps its word after any
requests, and a request that fails leaves it as it was (`Table.reported_unique_indexes_hold`).
The store in memory keeps its word exactly as long as no setting is saved under the id of one
document with the key of another one (`Memory.honours_all_along_iff`).
-/

namespace SettingStore

/-! ## The table -/

namespace Table

variable {t t' : Table}

/-- Every row has the text of a value. -/
def Written (t : Table) : Prop := ∀ row ∈ t.rows, ∃ v : Json, row.text = some v.text

/-- A row that is put in its place has a text as well. -/
theorem Puts.written {row : Row} (h : t.Puts row t') (orderly : t.Orderly) (written : t.Written)
    {v : Json} (hv : row.text = some v.text) : t'.Written := by
  rw [h.others]
  intro other hother
  rcases (mem_putRow orderly.sorted).1 hother with rfl | ⟨hother, -⟩
  · exact ⟨v, hv⟩
  · exact written other hother

theorem written_answer (orderly : t.Orderly) (written : t.Written) (request : Request) :
    (backend.answer t request).2.Written := by
  cases request with
  | saveSetting s =>
      show (t.save s).2.Written
      rcases save_cases orderly s with h | ⟨id, t', -, hputs, h⟩
      · rw [h]
        exact written
      · rw [h]
        exact hputs.written orderly written rfl
  | removeSetting id => exact fun row hrow => written row (List.mem_filter.1 hrow).1
  | dropIndex name =>
      show (t.dropIndex name).2.Written
      rcases dropIndex_cases t name with ⟨-, h⟩ | ⟨-, h⟩
      · rw [h]
        exact written
      · rw [h]
        exact written
  | createIndex field unique =>
      show (t.createIndex field unique).2.Written
      rcases createIndex_cases t field unique with ⟨e, h⟩ | ⟨column, -, ⟨-, h⟩ | ⟨-, h⟩⟩
      · rw [h]
        exact written
      · rw [h]
        exact written
      · rw [h]
        exact written
  | _ => exact written

theorem written_after (orderly : t.Orderly) (written : t.Written) (requests : List Request) :
    (backend.after requests t).Written := by
  have hboth := @Backend.kept_after _ backend (fun t => t.Orderly ∧ t.Written)
    (fun h request => ⟨orderly_answer h.1 request, written_answer h.1 h.2 request⟩) t
    ⟨orderly, written⟩ requests
  exact hboth.2

/-- What a written row holds in a plain column is never missing. -/
theorem Written.content (written : t.Written) {row : Row} (hrow : row ∈ t.rows) {column : Column}
    (hcolumn : column = .key ∨ column = .value) : ∃ text, column.content row = some text := by
  rcases hcolumn with rfl | rfl
  · exact ⟨row.key, rfl⟩
  · obtain ⟨v, hv⟩ := written row hrow
    exact ⟨v.text, hv⟩

/-- Rows with texts agree on a plain column exactly if they hold the same in it. -/
theorem agree_eq_false_iff {name : String} {column : Column} {unique : Bool} {a b : Row}
    (ha : ∃ text, column.content a = some text) (hb : ∃ text, column.content b = some text) :
    ColumnIndex.agree ⟨name, [column], unique⟩ a b = false ↔
      column.content a ≠ column.content b := by
  obtain ⟨x, hx⟩ := ha
  obtain ⟨y, hy⟩ := hb
  simp [ColumnIndex.agree, hx, hy]

/-- An index on one column is respected exactly if it is not unique or the rows, all of which
hold something in the column, hold different things there. -/
theorem respected_iff {name : String} {column : Column} {unique : Bool} {rows : List Row}
    (holds : ∀ row ∈ rows, ∃ text, column.content row = some text) :
    ColumnIndex.Respected ⟨name, [column], unique⟩ rows ↔
      (unique = true → rows.Pairwise fun a b => column.content a ≠ column.content b) := by
  refine imp_congr_right fun _ => List.Pairwise.iff_of_mem fun {a b} ha hb => ?_
  exact agree_eq_false_iff (holds a ha) (holds b hb)

theorem ofField?_label {column : Column} (h : column = .key ∨ column = .value) :
    Column.ofField? column.label = some column := by
  rcases h with rfl | rfl
  · rfl
  · rfl

/-- A unique index that is reported on a field is one on the column of the field. -/
theorem Sound.reported (sound : t.Sound) {index : Index}
    (reported : index ∈ t.indexes.map (·.report)) {field : String}
    (h : index.isUniqueOn field = true) :
    ∃ name column, (column = .key ∨ column = .value) ∧ Column.ofField? field = some column ∧
      (⟨name, [column], true⟩ : ColumnIndex) ∈ t.indexes := by
  obtain ⟨original, horiginal, rfl⟩ := List.mem_map.1 reported
  obtain ⟨column, unique, hcolumn, rfl⟩ := sound.named original horiginal
  obtain ⟨hunique, hfields⟩ := Index.isUniqueOn_iff.1 h
  have hlabel : column.label = field := by simpa [ColumnIndex.report] using hfields
  obtain rfl : unique = true := hunique
  exact ⟨_, column, hcolumn, hlabel ▸ ofField?_label hcolumn, horiginal⟩

/-- Where a unique index on a field is reported, the field is a column, and no two rows hold the
same in it. -/
theorem nodup_content_of_isUniqueOn (sound : t.Sound) (written : t.Written) {index : Index}
    (reported : index ∈ t.indexes.map (·.report)) {field : String}
    (h : index.isUniqueOn field = true) :
    ∃ column, Column.ofField? field = some column ∧ (t.rows.map (column.content ·)).Nodup := by
  obtain ⟨name, column, hcolumn, hfield, hindex⟩ := sound.reported reported h
  have hapart := (respected_iff fun row hrow => written.content hrow hcolumn).1
    (sound.respected _ hindex) rfl
  exact ⟨column, hfield, List.pairwise_map.2 hapart⟩

/-- A request that fails changes nothing. -/
theorem eq_of_answer_error (orderly : t.Orderly) {request : Request} {e : Error}
    (h : backend.answer t request = (.error e, t')) : t' = t := by
  cases request with
  | saveSetting s =>
      have h : t.save s = (.error e, t') := h
      rcases save_cases orderly s with hs | ⟨id, t'', -, -, hs⟩
      · rw [hs] at h
        exact (Prod.mk.inj h).2.symm
      · rw [hs] at h
        cases h
  | dropIndex name =>
      have h : t.dropIndex name = (.error e, t') := h
      rcases dropIndex_cases t name with ⟨-, hd⟩ | ⟨-, hd⟩
      · rw [hd] at h
        exact (Prod.mk.inj h).2.symm
      · rw [hd] at h
        cases h
  | createIndex field unique =>
      have h : t.createIndex field unique = (.error e, t') := h
      rcases createIndex_cases t field unique with ⟨e', hc⟩ | ⟨column, -, ⟨-, hc⟩ | ⟨-, hc⟩⟩
      · rw [hc] at h
        exact (Prod.mk.inj h).2.symm
      · rw [hc] at h
        cases h
      · rw [hc] at h
        cases h
  | listDuplicates => exact (Prod.mk.inj h).2.symm
  | _ => cases h

/-- After any requests no two rows agree on a field on which the table reports a unique index,
and a request that fails leaves the table as it was. -/
theorem reported_unique_indexes_hold (requests : List Request) :
    (∃ reported, backend.answer (backend.after requests empty) .listIndexes
        = (.ok reported, backend.after requests empty) ∧
      ∀ index ∈ reported, ∀ field, index.isUniqueOn field = true →
        ∃ column, Column.ofField? field = some column ∧
          ((backend.after requests empty).rows.map (column.content ·)).Nodup) ∧
    ∀ request e t', backend.answer (backend.after requests empty) request = (.error e, t') →
      t' = backend.after requests empty := by
  have hempty : Store.table.Reachable empty := .empty
  have hsound : (backend.after requests empty).Sound := (hempty.after requests).sound
  have hwritten : (backend.after requests empty).Written :=
    written_after sound_empty.orderly (fun row hrow => absurd hrow List.not_mem_nil) requests
  refine ⟨⟨_, rfl, fun index hindex field h => ?_⟩, fun request e t' h => ?_⟩
  · exact nodup_content_of_isUniqueOn hsound hwritten hindex h
  · exact eq_of_answer_error hsound.orderly h

/-- Two settings where both the keys and the values have to be different. -/
def twoApart : List Request :=
  [.createIndex "key" true, .createIndex "value" true, .saveSetting ⟨none, "a", .bool true⟩,
    .saveSetting ⟨none, "b", .null⟩]

/-- The values are different, and the second setting cannot get the key of the first one. -/
theorem reported_unique_indexes_hold_of_twoApart :
    (∃ index ∈ (backend.after twoApart empty).indexes.map (·.report),
      index.isUniqueOn "value" = true) ∧
    ((backend.after twoApart empty).rows.map (Column.content · .value)).Nodup ∧
    ∃ t', backend.answer (backend.after twoApart empty) (.saveSetting ⟨some 2, "a", .null⟩)
        = (.error .database, t') ∧ t' = backend.after twoApart empty := by
  have hindex : (⟨"idx_settings_value_unique", ["value"], true⟩ : Index) ∈
      (backend.after twoApart empty).indexes.map (·.report) := by decide
  have hfails : ∃ t', backend.answer (backend.after twoApart empty)
      (.saveSetting ⟨some 2, "a", .null⟩) = (.error .database, t') := ⟨_, rfl⟩
  obtain ⟨⟨reported, hreported, hunique⟩, hkept⟩ := reported_unique_indexes_hold twoApart
  have hlist := Except.ok.inj (Prod.mk.inj hreported).1
  obtain ⟨column, hcolumn, hnodup⟩ := hunique _ (hlist ▸ hindex) "value" rfl
  obtain rfl : Column.value = column := Option.some.inj hcolumn
  obtain ⟨t', ht'⟩ := hfails
  exact ⟨⟨_, hindex, rfl⟩, hnodup, t', ht', hkept _ _ _ ht'⟩

end Table

/-! ## The store in memory -/

namespace Memory

open Document

variable {m : Memory}

/-- No key is stored twice if a unique index on the key is reported. -/
def Honours (m : Memory) : Prop :=
  (∃ index ∈ m.indexes, index.isUniqueOn Service.keyField = true) → KeysDistinct m.documents

/-- The request gives a stored document the key of another one, although a unique index on the
key is reported. -/
def Takes (m : Memory) : Request → Prop
  | .saveSetting s =>
      (∃ index ∈ m.indexes, index.isUniqueOn Service.keyField = true) ∧
        ∃ d ∈ m.documents, s.id = some d.id ∧ ∃ e ∈ m.documents, e.id ≠ d.id ∧ e.key = s.key
  | _ => False

theorem keyUnique_iff :
    m.keyUnique = true ↔ ∃ index ∈ m.indexes, index.isUniqueOn Service.keyField = true := by
  rw [keyUnique, List.any_eq_true]

/-- A setting that takes no key from another document leaves all keys distinct. -/
theorem honours_save (orderly : m.Orderly) (honours : m.Honours) {s : Setting}
    (h : ¬ m.Takes (.saveSetting s)) : (m.save s).2.Honours := by
  intro hunique
  rw [save_indexes] at hunique
  have keys := honours hunique
  refine keysDistinct_of_put orderly.ids (orderly_save orderly s).ids keys
    (fun e => mem_save orderly s) fun e he hkey => ?_
  rw [save_key] at hkey
  rcases save_cases m s with ⟨p, change, d, hfound, hchange, hid, hsave⟩ | ⟨-, hnew, -⟩
  · have hd := List.mem_of_find?_eq_some hfound
    have hsaved : (m.save s).1.id = d.id := by rw [hsave, hchange]
    rw [hsaved]
    rcases hid with hid | ⟨-, -, hdkey⟩
    · by_contra hne
      exact h ⟨hunique, d, hd, hid, e, he, hne, hkey⟩
    · exact congrArg Document.id (keys.eq_of_key orderly.ids he hd (hkey.trans hdkey.symm))
  · exact absurd hkey (hnew (keyUnique_iff.2 hunique) e he)

/-- A setting that takes the key of another document is stored beside it. -/
theorem not_honours_of_takes (orderly : m.Orderly) {s : Setting}
    (h : m.Takes (.saveSetting s)) : ¬ (m.save s).2.Honours := by
  obtain ⟨hunique, d, hd, hid, e, he, hne, hkey⟩ := h
  intro honours
  rw [Honours, save_indexes] at honours
  have hsaved := (save_of_id hd hid).1
  have hboth : ∀ x, x ∈ (m.save s).2.documents ↔
      x = ⟨d.id, s.key, s.value⟩ ∨ (x ∈ m.documents ∧ x.id ≠ d.id) := by
    intro x
    rw [mem_save orderly, hsaved]
  have hsame := (honours hunique).eq_of_key (orderly_save orderly s).ids
    ((hboth e).2 (Or.inr ⟨he, hne⟩)) ((hboth _).2 (Or.inl rfl)) hkey
  exact hne (by rw [hsame])

/-- A request keeps the promise of the unique index exactly if it takes no key. -/
theorem honours_answer_iff (orderly : m.Orderly) (honours : m.Honours) (request : Request) :
    (backend.answer m request).2.Honours ↔ ¬ m.Takes request := by
  cases request with
  | saveSetting s =>
      exact ⟨fun h htakes => not_honours_of_takes orderly htakes h, honours_save orderly honours⟩
  | removeSetting id =>
      refine iff_of_true (fun hunique => ?_) not_false
      exact (honours hunique).sublist (List.filter_sublist.map _)
  | dropIndex name =>
      refine iff_of_true (fun hunique => ?_) not_false
      obtain ⟨index, hindex, hon⟩ := hunique
      exact honours ⟨index, (List.mem_filter.1 hindex).1, hon⟩
  | createIndex field unique =>
      refine iff_of_true ?_ not_false
      cases unique with
      | true =>
          show (m.createIndex field true).2.Honours
          rcases createIndex_unique m field with ⟨keys, h⟩ | ⟨-, h⟩
          · rw [h]
            exact fun _ => keys
          · rw [h]
            exact honours
      | false =>
          rintro ⟨index, hindex, hon⟩
          refine honours ⟨index, ?_, hon⟩
          -- The new index is not unique.
          refine (List.mem_append.1 hindex).resolve_right fun hnew => ?_
          rw [List.mem_singleton.1 hnew] at hon
          exact absurd (Index.isUniqueOn_iff.1 hon).1 (by simp)
  | _ => exact iff_of_true honours not_false

/-- The promise of the unique index is kept all along some requests exactly if none of them takes
the key of another document. -/
theorem honours_all_along_iff (requests : List Request) :
    (∀ before, before <+: requests → (backend.after before empty).Honours) ↔
      ∀ before request, before ++ [request] <+: requests →
        ¬ (backend.after before empty).Takes request := by
  have hempty : Store.memory.Reachable empty := .empty
  have horderly : ∀ before, (backend.after before empty).Orderly := fun before =>
    (hempty.after before).sound.orderly
  have hlast : ∀ before request, backend.after (before ++ [request]) empty
      = (backend.answer (backend.after before empty) request).2 := by
    intro before request
    rw [Backend.after, List.foldl_append]
    rfl
  constructor
  · intro honours before request hstart
    have hbefore := honours before ((List.prefix_append before [request]).trans hstart)
    have hafter := honours _ hstart
    rw [hlast] at hafter
    exact (honours_answer_iff (horderly before) hbefore request).1 hafter
  · intro htakes before
    induction before using List.reverseRecOn with
    | nil => exact fun _ hunique => absurd hunique (by simp [Backend.after, empty])
    | append_singleton before request ih =>
        intro hstart
        have hbefore := ih ((List.prefix_append before [request]).trans hstart)
        rw [hlast]
        exact (honours_answer_iff (horderly before) hbefore request).2
          (htakes before request hstart)

/-- Two settings, and the second one is saved again with the key of the first one. -/
def keyTaken : List Request :=
  [.createIndex "key" true, .saveSetting ⟨none, "a", .bool true⟩, .saveSetting ⟨none, "b", .null⟩,
    .saveSetting ⟨some 2, "a", .null⟩]

/-- The key is stored twice under an index that is reported as unique. -/
theorem unique_key_stored_twice :
    (∃ index ∈ (backend.after keyTaken empty).indexes,
      index.isUniqueOn Service.keyField = true) ∧
    (backend.after keyTaken empty).documents.map (·.key) = ["a", "a"] := by
  refine ⟨⟨⟨"idx_settings_key", ["key"], true⟩, ?_, rfl⟩, rfl⟩
  decide

end Memory

end SettingStore
