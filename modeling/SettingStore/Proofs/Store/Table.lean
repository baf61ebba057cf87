import SettingStore.Proofs.Documents
import SettingStore.Proofs.Store.Texts
import SettingStore.Proofs.Text.Entries
import SettingStore.Store.Table.Basic

set_option autoImplicit false

/-! # Laws of the table store

Every request keeps the rows in the order of their numbers, all of them 64-bit numbers and
none above the highest, and keeps the rows in accord with every index (`Table.Orderly`,
`orderly_answer`). It also keeps the store informed about a unique index on the key, and adds
only indexes on one column under the name of that column (`Table.Sound`, `sound_answer`).
-/

namespace SettingStore.Table

open Document

/-- The index covers one column, and its name is the one for that column. -/
def Named (index : ColumnIndex) : Prop :=
  ∃ column unique, (column = .key ∨ column = .value) ∧
    index = ⟨indexName column unique, [column], unique⟩

/-- What every request preserves, and direct access as well. -/
structure Orderly (t : Table) : Prop where
  sorted : t.rows.Pairwise fun a b => a.id < b.id
  signed : ∀ row ∈ t.rows, Word.Signed row.id
  bounded : ∀ row ∈ t.rows, row.id ≤ t.highest
  highest : 0 ≤ t.highest ∧ t.highest ≤ Word.maxSigned
  respected : ∀ index ∈ t.indexes, index.Respected t.rows

/-- What every request preserves. -/
structure Sound (t : Table) : Prop where
  sorted : t.rows.Pairwise fun a b => a.id < b.id
  signed : ∀ row ∈ t.rows, Word.Signed row.id
  bounded : ∀ row ∈ t.rows, row.id ≤ t.highest
  highest : 0 ≤ t.highest ∧ t.highest ≤ Word.maxSigned
  informed : t.keyUnique = t.hasUniqueKey
  respected : ∀ index ∈ t.indexes, index.Respected t.rows
  named : ∀ index ∈ t.indexes, Named index

theorem sound_empty : empty.Sound := by
  refine ⟨List.Pairwise.nil, ?_, ?_, by decide, rfl, ?_, ?_⟩
  · intro row hrow
    exact absurd hrow List.not_mem_nil
  · intro row hrow
    exact absurd hrow List.not_mem_nil
  · intro index hindex
    exact absurd hindex List.not_mem_nil
  · intro index hindex
    exact absurd hindex List.not_mem_nil

variable {t t' : Table}

theorem Sound.orderly (sound : t.Sound) : t.Orderly :=
  ⟨sound.sorted, sound.signed, sound.bounded, sound.highest, sound.respected⟩

theorem Orderly.sound (orderly : t.Orderly) (informed : t.keyUnique = t.hasUniqueKey)
    (named : ∀ index ∈ t.indexes, Named index) : t.Sound :=
  ⟨orderly.sorted, orderly.signed, orderly.bounded, orderly.highest, informed,
    orderly.respected, named⟩

/-- A sound table knows already what opening it finds out. -/
theorem Sound.opened (sound : t.Sound) : t.opened = t := by
  rw [Table.opened, ← sound.informed]

/-! ## Documents -/

theorem Orderly.ids (orderly : t.Orderly) : IdsIncrease t.documents :=
  List.pairwise_map.2 orderly.sorted

theorem Sound.ids (sound : t.Sound) : IdsIncrease t.documents := sound.orderly.ids

theorem keysDistinct_documents {rows : List Row} :
    KeysDistinct (rows.map Row.document) ↔ (rows.map (·.key)).Nodup := by
  rw [KeysDistinct, List.map_map]
  exact Iff.rfl

/-- A unique index on the key alone is respected exactly where no key is stored twice. -/
theorem respected_key_iff {name : String} {rows : List Row} :
    ColumnIndex.Respected ⟨name, [.key], true⟩ rows ↔ (rows.map (·.key)).Nodup := by
  rw [List.Nodup, List.pairwise_map]
  simp [ColumnIndex.Respected, ColumnIndex.agree, Column.content]

/-! ## Rows that are put in their place -/

/-- The documents of the rows change with a row that is put in its place. -/
theorem mem_documents_putRow {row : Row} {rows : List Row}
    (sorted : rows.Pairwise fun a b => a.id < b.id) {d : Document} :
    d ∈ (putRow row rows).map Row.document ↔
      d = row.document ∨ (d ∈ rows.map Row.document ∧ d.id ≠ row.id) := by
  rw [List.mem_map, List.mem_map]
  simp only [mem_putRow sorted]
  constructor
  · rintro ⟨other, rfl | ⟨hother, hne⟩, rfl⟩
    · exact Or.inl rfl
    · exact Or.inr ⟨⟨other, hother, rfl⟩, hne⟩
  · rintro (rfl | ⟨⟨other, hother, rfl⟩, hne⟩)
    · exact ⟨row, Or.inl rfl, rfl⟩
    · exact ⟨other, Or.inr ⟨hother, hne⟩, rfl⟩

/-- What can become of the rows without a breach of any index. -/
theorem withRows?_eq_some_iff {rows : List Row} {highest : Int} :
    t.withRows? rows highest = some t' ↔
      (∀ index ∈ t.indexes, index.Respected rows) ∧ t' = { t with rows, highest } := by
  rw [withRows?]
  by_cases h : ∀ index ∈ t.indexes, index.Respected rows
  · rw [if_pos h, Option.some.injEq]
    exact ⟨fun he => ⟨h, he.symm⟩, fun he => he.2.symm⟩
  · rw [if_neg h]
    exact ⟨fun he => absurd he (by simp), fun he => absurd he.1 h⟩

/-- The table after a row was put in its place, with a number that was used for it. -/
structure Puts (t : Table) (row : Row) (t' : Table) : Prop where
  signed : Word.Signed row.id
  used : row.id ≤ t'.highest
  grows : t.highest ≤ t'.highest
  left : t'.highest ≤ Word.maxSigned
  respected : ∀ index ∈ t.indexes, index.Respected (putRow row t.rows)
  others : t' = { t with rows := putRow row t.rows, highest := t'.highest }

namespace Puts

variable {row : Row}

theorem of_withRows? {highest : Int} (signed : Word.Signed row.id) (used : row.id ≤ highest)
    (grows : t.highest ≤ highest) (left : highest ≤ Word.maxSigned)
    (h : t.withRows? (putRow row t.rows) highest = some t') : t.Puts row t' := by
  obtain ⟨hrespected, rfl⟩ := withRows?_eq_some_iff.1 h
  exact ⟨signed, used, grows, left, hrespected, rfl⟩

theorem orderly (h : t.Puts row t') (orderly : t.Orderly) : t'.Orderly := by
  rw [h.others]
  refine ⟨putRow_pairwise row orderly.sorted, ?_, ?_, ⟨?_, h.left⟩, h.respected⟩
  · intro other hother
    rcases (mem_putRow orderly.sorted).1 hother with rfl | ⟨hother, -⟩
    · exact h.signed
    · exact orderly.signed other hother
  · intro other hother
    rcases (mem_putRow orderly.sorted).1 hother with rfl | ⟨hother, -⟩
    · exact h.used
    · exact Int.le_trans (orderly.bounded other hother) h.grows
  · exact Int.le_trans orderly.highest.1 h.grows

end Puts

/-! ## Saving -/

/-- A successful insertion puts a row in its place, under the next number. -/
theorem puts_of_insertNext? (orderly : t.Orderly) {key : String} {text : Option String}
    {saved : Int × Table} (h : t.insertNext? key text = some saved) :
    t.Puts ⟨saved.1, key, text⟩ saved.2 := by
  rw [insertNext?] at h
  by_cases hfull : Word.maxSigned ≤ t.highest
  · rw [if_pos hfull] at h
    exact absurd h (by simp)
  · rw [if_neg hfull] at h
    obtain ⟨t', hrows, rfl⟩ := Option.map_eq_some_iff.1 h
    have hzero := orderly.highest.1
    have hsigned : Word.Signed (t.highest + 1) := by
      constructor
      · show Word.minSigned ≤ t.highest + 1
        simp only [Word.minSigned]
        omega
      · show t.highest + 1 ≤ Word.maxSigned
        omega
    have hgrows : t.highest ≤ t.highest + 1 := by omega
    exact .of_withRows? hsigned (Int.le_refl _) hgrows hsigned.2 hrows

/-- So does an insertion that gives the row of a stored key another text. -/
theorem puts_of_upsert? (orderly : t.Orderly) {key : String} {text : Option String}
    {saved : Int × Table} (h : t.upsert? key text = some saved) :
    t.Puts ⟨saved.1, key, text⟩ saved.2 := by
  rw [upsert?] at h
  split at h
  · exact absurd h (by simp)
  · rename_i hfree
    simp only [Bool.or_eq_true, decide_eq_true_eq, not_or, Int.not_le] at hfree
    split at h
    · exact puts_of_insertNext? orderly h
    · rename_i row hrow
      obtain ⟨t', hrows, rfl⟩ := Option.map_eq_some_iff.1 h
      have hmem : row ∈ t.rows := List.mem_of_find?_eq_some hrow
      have hbound := orderly.bounded row hmem
      have hnumber : row.id ≤ t.highest + 1 := by omega
      exact .of_withRows? (orderly.signed row hmem) hnumber (by omega) (by omega) hrows

/-- And so does an insertion under a given number. -/
theorem puts_of_put? (orderly : t.Orderly) {id : Int} {key : String} {text : Option String}
    {saved : Int × Table} (h : t.put? id key text = some saved) :
    saved.1 = id ∧ t.Puts ⟨saved.1, key, text⟩ saved.2 := by
  rw [put?] at h
  by_cases hsigned : Word.Signed id
  · rw [if_pos hsigned] at h
    obtain ⟨t', hrows, rfl⟩ := Option.map_eq_some_iff.1 h
    have hmax : max t.highest id ≤ Word.maxSigned := Int.max_le.2 ⟨orderly.highest.2, hsigned.2⟩
    exact ⟨rfl, .of_withRows? hsigned (Int.le_max_right _ _) (Int.le_max_left _ _) hmax hrows⟩
  · rw [if_neg hsigned] at h
    exact absurd h (by simp)

/-- A successful save puts a row in its place, under the id of the setting if it has one;
otherwise nothing happens. -/
theorem save_cases (orderly : t.Orderly) (s : Setting) :
    t.save s = (.error .database, t) ∨
      ∃ id t', (∀ given, s.id = some given → id = given) ∧
        t.Puts ⟨id, s.key, some s.value.text⟩ t' ∧ t.save s = (.ok ⟨id, s.key, s.value⟩, t') := by
  rw [save]
  cases hs : s.id with
  | some id =>
      dsimp only
      cases hput : t.put? id s.key (some s.value.text) with
      | none => exact Or.inl rfl
      | some saved =>
          obtain ⟨hid, hputs⟩ := puts_of_put? orderly hput
          refine Or.inr ⟨saved.1, saved.2, ?_, hputs, rfl⟩
          intro given hgiven
          rw [hid]
          exact Option.some.inj hgiven
  | none =>
      dsimp only
      cases hsaved : (if t.keyUnique then t.upsert? s.key (some s.value.text)
          else t.insertNext? s.key (some s.value.text)) with
      | none => exact Or.inl rfl
      | some saved =>
          refine Or.inr ⟨saved.1, saved.2, (fun _ hgiven => by cases hgiven), ?_, rfl⟩
          split at hsaved
          · exact puts_of_upsert? orderly hsaved
          · exact puts_of_insertNext? orderly hsaved

/-- After a successful save the documents are the one of the saved row, whose value is read
from its text, and all others but one that it replaces. -/
theorem mem_documents_save (orderly : t.Orderly) {s : Setting} {saved : Document}
    (h : t.save s = (.ok saved, t')) :
    saved.key = s.key ∧ saved.value = s.value ∧ (∀ given, s.id = some given → saved.id = given) ∧
      ∀ d, d ∈ t'.documents ↔
        d = ⟨saved.id, s.key, (Json.ofText? s.value.text).getD .null⟩ ∨
          (d ∈ t.documents ∧ d.id ≠ saved.id) := by
  rcases save_cases orderly s with herror | ⟨id, next, hgiven, hputs, hok⟩
  · rw [herror] at h
    cases h
  · rw [hok] at h
    cases h
    refine ⟨rfl, rfl, hgiven, fun d => ?_⟩
    rw [hputs.others]
    exact mem_documents_putRow orderly.sorted

/-- A row that is inserted under the next number has a number that no row had. -/
theorem id_of_insertNext? {key : String} {text : Option String} {saved : Int × Table}
    (h : t.insertNext? key text = some saved) : saved.1 = t.highest + 1 := by
  rw [insertNext?] at h
  split at h
  · exact absurd h (by simp)
  · obtain ⟨t', -, rfl⟩ := Option.map_eq_some_iff.1 h
    rfl

/-- A setting with the id of the document that counts for its key, if there is one, is saved in
that document or under an id that is not used. -/
theorem takesPlace_save (orderly : t.Orderly) {key : String} {w : Json} {saved : Document}
    (h : t.save ⟨(find? key t.documents).map (·.id), key, w⟩ = (.ok saved, t')) :
    TakesPlace t.documents key saved.id := by
  unfold TakesPlace
  cases hfound : find? key t.documents with
  | some d =>
      rw [hfound] at h
      obtain ⟨-, -, hgiven, -⟩ := mem_documents_save orderly h
      exact hgiven d.id rfl
  | none =>
      have hnone : t.rows.find? (·.key == key) = none := by
        rw [List.find?_eq_none]
        intro row hrow heq
        have hnot := find?_eq_none_iff.1 hfound row.document (List.mem_map_of_mem hrow)
        exact hnot (beq_iff_eq.1 heq)
      -- Also where the key is known to be unique, the row is inserted under the next number.
      have hnext : saved.id = t.highest + 1 := by
        rw [hfound, save] at h
        dsimp only [Option.map_none] at h
        split at h
        · rename_i id next hsaved
          cases h
          split at hsaved
          · rw [upsert?, hnone] at hsaved
            split at hsaved
            · exact absurd hsaved (by simp)
            · exact id_of_insertNext? hsaved
          · exact id_of_insertNext? hsaved
        · cases h
      intro d hd
      obtain ⟨row, hrow, rfl⟩ := List.mem_map.1 hd
      have hbound := orderly.bounded row hrow
      show saved.id ≠ row.id
      omega

theorem save_indexes (orderly : t.Orderly) (s : Setting) : (t.save s).2.indexes = t.indexes := by
  rcases save_cases orderly s with h | ⟨id, t', -, hputs, h⟩
  · rw [h]
  · rw [h, hputs.others]

theorem save_entities (orderly : t.Orderly) (s : Setting) : (t.save s).2.entities = t.entities := by
  rcases save_cases orderly s with h | ⟨id, t', -, hputs, h⟩
  · rw [h]
  · rw [h, hputs.others]

theorem orderly_save (orderly : t.Orderly) (s : Setting) : (t.save s).2.Orderly := by
  rcases save_cases orderly s with h | ⟨id, t', -, hputs, h⟩
  · rw [h]
    exact orderly
  · rw [h]
    exact hputs.orderly orderly

theorem sound_save (sound : t.Sound) (s : Setting) : (t.save s).2.Sound := by
  have orderly := orderly_save sound.orderly s
  rcases save_cases sound.orderly s with h | ⟨id, t', -, hputs, h⟩
  · rw [h]
    exact sound
  · rw [h] at orderly ⊢
    rw [hputs.others] at orderly ⊢
    exact orderly.sound sound.informed sound.named

/-! ## Removing -/

theorem documents_remove (t : Table) (id : Int) :
    (t.remove id).documents = t.documents.filter (·.id != id) := by
  rw [remove, documents, documents, List.filter_map]
  rfl

theorem orderly_remove (orderly : t.Orderly) (id : Int) : (t.remove id).Orderly := by
  have hsub : (t.remove id).rows.Sublist t.rows := List.filter_sublist
  refine ⟨orderly.sorted.sublist hsub, ?_, ?_, orderly.highest, ?_⟩
  · intro row hrow
    exact orderly.signed row (hsub.mem hrow)
  · intro row hrow
    exact orderly.bounded row (hsub.mem hrow)
  · intro index hindex hunique
    exact (orderly.respected index hindex hunique).sublist hsub

theorem sound_remove (sound : t.Sound) (id : Int) : (t.remove id).Sound :=
  (orderly_remove sound.orderly id).sound sound.informed sound.named

/-! ## Indexes -/

/-- The names of the indexes are all different, also without regard to case. -/
theorem sameName_indexName {column column' : Column} {unique unique' : Bool}
    (hcolumn : column = .key ∨ column = .value) (hcolumn' : column' = .key ∨ column' = .value)
    (h : sameName (indexName column unique) (indexName column' unique') = true) :
    column = column' ∧ unique = unique' := by
  rcases hcolumn with rfl | rfl <;> rcases hcolumn' with rfl | rfl <;> cases unique <;>
    cases unique' <;> first | exact ⟨rfl, rfl⟩ | exact absurd h (by decide)

theorem hasUniqueKey_iff :
    t.hasUniqueKey = true ↔
      ∃ index ∈ t.indexes.map (·.report), index.isUniqueOn Service.keyField = true := by
  simp [hasUniqueKey]

/-- An index that is reported as a unique one on the key alone covers the key column. -/
theorem columns_of_isUniqueOn {index : ColumnIndex}
    (h : index.report.isUniqueOn Service.keyField = true) :
    index.unique = true ∧ index.columns = [.key] := by
  obtain ⟨hunique, hfields⟩ := Index.isUniqueOn_iff.1 h
  have hlabels : index.columns.map Column.label = [Service.keyField] := hfields
  obtain ⟨column, hcolumns, hlabel⟩ := List.map_eq_singleton_iff.1 hlabels
  refine ⟨hunique, ?_⟩
  cases column with
  | key => exact hcolumns
  | _ => exact absurd hlabel (by decide)

/-- A unique index on the key keeps every key from being stored twice. -/
theorem Orderly.keysDistinct (orderly : t.Orderly) (h : t.hasUniqueKey = true) :
    KeysDistinct t.documents := by
  rw [hasUniqueKey, List.any_eq_true] at h
  obtain ⟨⟨name, columns, unique⟩, hindex, hon⟩ := h
  obtain ⟨rfl, rfl⟩ := columns_of_isUniqueOn hon
  exact keysDistinct_documents.2 (respected_key_iff.1 (orderly.respected _ hindex))

theorem Sound.keysDistinct (sound : t.Sound) (h : t.hasUniqueKey = true) :
    KeysDistinct t.documents := sound.orderly.keysDistinct h

/-- Creating an index with a free name adds it, if the rows respect it. -/
theorem createIndex_cases (t : Table) (field : String) (unique : Bool) :
    (∃ e, t.createIndex field unique = (.error e, t)) ∨
      ∃ column, Column.ofField? field = some column ∧
        ((t.hasIndex (indexName column unique) = true ∧
            t.createIndex field unique = (.ok (), t.opened)) ∨
          (ColumnIndex.Respected ⟨indexName column unique, [column], unique⟩ t.rows ∧
            t.createIndex field unique = (.ok (), opened { t with
              indexes := ⟨indexName column unique, [column], unique⟩ :: t.indexes }))) := by
  rw [createIndex]
  cases hcolumn : Column.ofField? field with
  | none => exact Or.inl ⟨_, rfl⟩
  | some column =>
      dsimp only
      by_cases hhas : t.hasIndex (indexName column unique) = true
      · rw [if_pos hhas]
        exact Or.inr ⟨column, rfl, Or.inl ⟨hhas, rfl⟩⟩
      · rw [if_neg hhas, addIndex?]
        by_cases hrespected :
            ColumnIndex.Respected ⟨indexName column unique, [column], unique⟩ t.rows
        · rw [if_pos hrespected]
          exact Or.inr ⟨column, rfl, Or.inr ⟨hrespected, rfl⟩⟩
        · rw [if_neg hrespected]
          exact Or.inl ⟨_, rfl⟩

/-- Only the two plain columns can be named. -/
theorem ofField?_cases {field : String} {column : Column}
    (h : Column.ofField? field = some column) : column = .key ∨ column = .value := by
  rw [Column.ofField?] at h
  split at h
  · exact Or.inl (Option.some.inj h).symm
  · split at h
    · exact Or.inr (Option.some.inj h).symm
    · exact absurd h (by simp)

theorem orderly_createIndex (orderly : t.Orderly) (field : String) (unique : Bool) :
    (t.createIndex field unique).2.Orderly := by
  rcases createIndex_cases t field unique with
    ⟨e, h⟩ | ⟨column, hcolumn, ⟨-, h⟩ | ⟨hrespected, h⟩⟩
  · rw [h]
    exact orderly
  · rw [h]
    exact ⟨orderly.sorted, orderly.signed, orderly.bounded, orderly.highest, orderly.respected⟩
  · rw [h]
    refine ⟨orderly.sorted, orderly.signed, orderly.bounded, orderly.highest, ?_⟩
    intro index hindex
    rcases List.mem_cons.1 hindex with rfl | hindex
    · exact hrespected
    · exact orderly.respected index hindex

theorem sound_createIndex (sound : t.Sound) (field : String) (unique : Bool) :
    (t.createIndex field unique).2.Sound := by
  have orderly := orderly_createIndex sound.orderly field unique
  rcases createIndex_cases t field unique with
    ⟨e, h⟩ | ⟨column, hcolumn, ⟨-, h⟩ | ⟨hrespected, h⟩⟩
  · rw [h]
    exact sound
  · rw [h] at orderly ⊢
    exact orderly.sound rfl sound.named
  · rw [h] at orderly ⊢
    refine orderly.sound rfl ?_
    intro index hindex
    rcases List.mem_cons.1 hindex with rfl | hindex
    · exact ⟨column, unique, ofField?_cases hcolumn, rfl⟩
    · exact sound.named index hindex

/-- A unique index on the key is created exactly if no key is stored twice. -/
theorem createIndex_key (sound : t.Sound) :
    (KeysDistinct t.documents ∧ ∃ t', t.createIndex Service.keyField true = (.ok (), t') ∧
        t'.hasUniqueKey = true ∧ t'.rows = t.rows ∧ t'.highest = t.highest ∧
        t.indexes ⊆ t'.indexes ∧ ∀ index ∈ t'.indexes,
          index ∈ t.indexes ∨ index.report.isUniqueOn Service.keyField = true) ∨
      (¬ KeysDistinct t.documents ∧
        t.createIndex Service.keyField true = (.error .database, t)) := by
  have hfield : Column.ofField? Service.keyField = some .key := rfl
  rw [createIndex, hfield]
  dsimp only
  by_cases hhas : t.hasIndex (indexName .key true) = true
  · have hunique : t.hasUniqueKey = true := by
      rw [hasIndex, List.any_eq_true] at hhas
      obtain ⟨index, hindex, hsame⟩ := hhas
      obtain ⟨column, unique, hcolumn, rfl⟩ := sound.named index hindex
      obtain ⟨rfl, rfl⟩ := sameName_indexName (Or.inl rfl) hcolumn hsame
      exact List.any_eq_true.2 ⟨_, hindex, rfl⟩
    rw [if_pos hhas]
    refine Or.inl ⟨sound.keysDistinct hunique, t.opened, rfl, hunique, rfl, rfl, ?_, ?_⟩
    · exact List.Subset.refl _
    · exact fun index hindex => Or.inl hindex
  · rw [if_neg hhas, addIndex?]
    by_cases hkeys : KeysDistinct t.documents
    · rw [if_pos (respected_key_iff.2 (keysDistinct_documents.1 hkeys))]
      refine Or.inl ⟨hkeys, _, rfl, rfl, rfl, rfl, List.subset_cons_self _ _, ?_⟩
      intro index hindex
      rcases List.mem_cons.1 hindex with rfl | hindex
      · exact Or.inr rfl
      · exact Or.inl hindex
    · rw [if_neg fun h => hkeys (keysDistinct_documents.2 (respected_key_iff.1 h))]
      exact Or.inr ⟨hkeys, rfl⟩

/-- The names that are refused in a statement that drops an index: those with a zero character, and
the one of the index that cannot be dropped. -/
def RefusesName (name : String) : Prop :=
  '\x00' ∈ name.toList ∨ sameName name primaryIndex = true

/-- Dropping an index drops every index of its name, whatever the case. -/
theorem dropIndex_cases (t : Table) (name : String) :
    (RefusesName name ∧ t.dropIndex name = (.error .database, t)) ∨
      (¬ RefusesName name ∧ t.dropIndex name = (.ok (), opened
        { t with indexes := t.indexes.filter fun index => !sameName name index.name })) := by
  rw [dropIndex, QuotedName.dropped?_dropStatement]
  by_cases hzero : '\x00' ∈ name.toList
  · rw [if_pos hzero]
    exact Or.inl ⟨Or.inl hzero, rfl⟩
  · rw [if_neg hzero]
    dsimp only
    cases h : sameName name primaryIndex with
    | true => exact Or.inl ⟨Or.inr h, rfl⟩
    | false =>
        refine Or.inr ⟨?_, rfl⟩
        rintro (hmem | hsame)
        · exact hzero hmem
        · rw [h] at hsame
          cases hsame

theorem orderly_dropIndex (orderly : t.Orderly) (name : String) :
    (t.dropIndex name).2.Orderly := by
  rcases dropIndex_cases t name with ⟨-, h⟩ | ⟨-, h⟩
  · rw [h]
    exact orderly
  · rw [h]
    refine ⟨orderly.sorted, orderly.signed, orderly.bounded, orderly.highest, ?_⟩
    intro index hindex
    exact orderly.respected index (List.mem_filter.1 hindex).1

theorem sound_dropIndex (sound : t.Sound) (name : String) : (t.dropIndex name).2.Sound := by
  have orderly := orderly_dropIndex sound.orderly name
  rcases dropIndex_cases t name with ⟨-, h⟩ | ⟨-, h⟩
  · rw [h]
    exact sound
  · rw [h] at orderly ⊢
    refine orderly.sound rfl ?_
    intro index hindex
    exact sound.named index (List.mem_filter.1 hindex).1

/-- Dropping an index keeps every index on another column. -/
theorem mem_dropIndex_of_columns_ne (sound : t.Sound) {index other : ColumnIndex}
    (hindex : Named index) (hother : other ∈ t.indexes)
    (hne : other.columns ≠ index.columns) : other ∈ (t.dropIndex index.name).2.indexes := by
  obtain ⟨column, unique, hcolumn, rfl⟩ := hindex
  obtain ⟨column', unique', hcolumn', rfl⟩ := sound.named other hother
  rcases dropIndex_cases t (indexName column unique) with ⟨-, h⟩ | ⟨-, h⟩
  · rw [h]
    exact hother
  · rw [h]
    refine List.mem_filter.2 ⟨hother, ?_⟩
    rw [Bool.not_eq_true']
    cases hsame : sameName (indexName column unique) (indexName column' unique') with
    | false => rfl
    | true => exact absurd (by rw [(sameName_indexName hcolumn hcolumn' hsame).1]) hne

/-! ## Saving where the key is unique -/

/-- Where the key is unique, a row is put in its place only if no other one has its key. -/
theorem Puts.alone {row : Row} (h : t.Puts row t') (orderly : t.Orderly)
    (unique : t.hasUniqueKey = true) {d : Document} (hd : d ∈ t.documents)
    (hkey : d.key = row.key) : d.id = row.id := by
  by_contra hne
  have horderly := h.orderly orderly
  have hunique : t'.hasUniqueKey = true := by
    rw [h.others]
    exact unique
  have hmem : ∀ e, e ∈ t'.documents ↔ e = row.document ∨ (e ∈ t.documents ∧ e.id ≠ row.id) := by
    rw [h.others]
    exact fun _ => mem_documents_putRow orderly.sorted
  have hsame : d = row.document := (horderly.keysDistinct hunique).eq_of_key horderly.ids
    ((hmem d).2 (Or.inr ⟨hd, hne⟩)) ((hmem _).2 (Or.inl rfl)) hkey
  exact hne (congrArg Document.id hsame)

/-- The settings that a table with a unique index on the key does not save: those whose key is
stored under another number than theirs, and those without a number when none is left, or when
their key is stored and the store has not been told that it is unique. -/
def Refuses (t : Table) (s : Setting) : Prop :=
  match s.id with
  | some given => ∃ d ∈ t.documents, d.key = s.key ∧ d.id ≠ given
  | none => Word.maxSigned ≤ t.highest ∨ (t.keyUnique = false ∧ ∃ d ∈ t.documents, d.key = s.key)

/-- The statement that saves a setting. -/
def statement? (t : Table) (s : Setting) : Option (Int × Table) :=
  match s.id with
  | some given => t.put? given s.key (some s.value.text)
  | none =>
      if t.keyUnique then t.upsert? s.key (some s.value.text)
      else t.insertNext? s.key (some s.value.text)

/-- A setting is not saved exactly if its statement fails. -/
theorem save_eq_error_iff {s : Setting} :
    t.save s = (.error .database, t) ↔ t.statement? s = none := by
  rw [save]
  split
  · rename_i number t' hsaved
    have hsome : t.statement? s = some (number, t') := hsaved
    rw [hsome]
    simp
  · rename_i hsaved
    have hnone : t.statement? s = none := hsaved
    rw [hnone]
    simp

/-- A setting is saved under the number that its statement answers. -/
theorem save_of_statement? {s : Setting} {number : Int}
    (h : t.statement? s = some (number, t')) :
    t.save s = (.ok ⟨number, s.key, s.value⟩, t') := by
  rw [save]
  split
  · rename_i number' next hsaved
    have hsome : t.statement? s = some (number', next) := hsaved
    rw [h] at hsome
    cases hsome
    rfl
  · rename_i hsaved
    have hnone : t.statement? s = none := hsaved
    rw [h] at hnone
    cases hnone

/-- A setting that is to be refused is not saved. -/
theorem save_of_refuses (orderly : t.Orderly) (unique : t.hasUniqueKey = true) {s : Setting}
    (refuses : t.Refuses s) : t.save s = (.error .database, t) := by
  rw [save_eq_error_iff, statement?]
  unfold Refuses at refuses
  cases hid : s.id with
  | some given =>
      rw [hid] at refuses
      obtain ⟨d, hd, hkey, hne⟩ := refuses
      rw [Option.eq_none_iff_forall_ne_some]
      intro saved hput
      obtain ⟨hsaved, hputs⟩ := puts_of_put? orderly hput
      exact hne ((hputs.alone orderly unique hd hkey).trans hsaved)
  | none =>
      rw [hid] at refuses
      dsimp only
      rcases refuses with hfull | ⟨hknown, d, hd, hkey⟩
      · rw [upsert?, insertNext?, if_pos hfull]
        simp [hfull]
      · rw [if_neg (by rw [hknown]; decide), Option.eq_none_iff_forall_ne_some]
        intro saved hinsert
        -- The next number is above that of the document.
        have halone := (puts_of_insertNext? orderly hinsert).alone orderly unique hd hkey
        have hnext := id_of_insertNext? hinsert
        obtain ⟨row, hrow, rfl⟩ := List.mem_map.1 hd
        have hbound := orderly.bounded row hrow
        have hsame : row.id = saved.1 := halone
        omega

section KeyOnly

/-- Where only the key is unique, a row can be put in its place if no other one has its key. -/
theorem withRows?_putRow (orderly : t.Orderly)
    (only : ∀ index ∈ t.indexes, index.unique = true →
      index.report.isUniqueOn Service.keyField = true) (row : Row)
    (alone : t.hasUniqueKey = true → ∀ d ∈ t.documents, d.key = row.key → d.id = row.id)
    (highest : Int) :
    t.withRows? (putRow row t.rows) highest
      = some { t with rows := putRow row t.rows, highest } := by
  refine withRows?_eq_some_iff.2 ⟨?_, rfl⟩
  rintro ⟨name, columns, unique⟩ hindex hunique
  have hon := only _ hindex hunique
  have hkey : t.hasUniqueKey = true := List.any_eq_true.2 ⟨_, hindex, hon⟩
  have hids : IdsIncrease ((putRow row t.rows).map Row.document) :=
    List.pairwise_map.2 (putRow_pairwise row orderly.sorted)
  have hmem : ∀ e, e ∈ (putRow row t.rows).map Row.document ↔
      e = row.document ∨ (e ∈ t.documents ∧ e.id ≠ row.document.id) :=
    fun _ => mem_documents_putRow orderly.sorted
  have hkeys := keysDistinct_of_put orderly.ids hids (orderly.keysDistinct hkey) hmem (alone hkey)
  obtain ⟨rfl, rfl⟩ := columns_of_isUniqueOn hon
  exact respected_key_iff.2 (keysDistinct_documents.1 hkeys) rfl

variable (orderly : t.Orderly)
  (only : ∀ index ∈ t.indexes, index.unique = true →
    index.report.isUniqueOn Service.keyField = true)
include orderly only

/-- A row can be put under a given number if no other one has its key. -/
theorem put?_eq {id : Int} {key : String} (signed : Word.Signed id)
    (alone : t.hasUniqueKey = true → ∀ d ∈ t.documents, d.key = key → d.id = id)
    (text : Option String) :
    t.put? id key text = some (id,
      { t with rows := putRow ⟨id, key, text⟩ t.rows, highest := max t.highest id }) := by
  rw [put?, if_pos signed, withRows?_putRow orderly only ⟨id, key, text⟩ alone, Option.map_some]

/-- A key that is not stored, or need not be unique, gets the next number while one is left. -/
theorem insertNext?_eq {key : String}
    (new : t.hasUniqueKey = true → ∀ d ∈ t.documents, d.key ≠ key)
    (left : t.highest < Word.maxSigned) (text : Option String) :
    t.insertNext? key text = some (t.highest + 1,
      { t with rows := putRow ⟨t.highest + 1, key, text⟩ t.rows, highest := t.highest + 1 }) := by
  have hrows := withRows?_putRow orderly only ⟨t.highest + 1, key, text⟩
    (fun hunique d hd hkey => absurd hkey (new hunique d hd)) (t.highest + 1)
  rw [insertNext?, if_neg (Int.not_le.2 left), hrows, Option.map_some]

/-- Where the key is unique, a text can be put under any key while a number is left. -/
theorem upsert?_ne_none (unique : t.hasUniqueKey = true) (left : t.highest < Word.maxSigned)
    (key : String) (text : Option String) : t.upsert? key text ≠ none := by
  have hfull : ¬ Word.maxSigned ≤ t.highest := Int.not_le.2 left
  rw [upsert?, unique]
  simp only [Bool.not_true, Bool.false_or, decide_eq_true_eq, if_neg hfull]
  cases hfound : t.rows.find? (·.key == key) with
  | none =>
      have hnew : ∀ d ∈ t.documents, d.key ≠ key := by
        intro d hd heq
        obtain ⟨row, hrow, rfl⟩ := List.mem_map.1 hd
        exact List.find?_eq_none.1 hfound row hrow (beq_iff_eq.2 heq)
      dsimp only
      rw [insertNext?_eq orderly only (fun _ => hnew) left text]
      exact Option.some_ne_none _
  | some row =>
      have hrow : row.document ∈ t.documents :=
        List.mem_map_of_mem (List.mem_of_find?_eq_some hfound)
      have hkey : row.key = key := by simpa using List.find?_some hfound
      have halone : ∀ d ∈ t.documents, d.key = key → d.id = row.id := by
        intro d hd heq
        have hsame : d = row.document :=
          (orderly.keysDistinct unique).eq_of_key orderly.ids hd hrow (heq.trans hkey.symm)
        exact congrArg Document.id hsame
      dsimp only
      rw [withRows?_putRow orderly only ⟨row.id, key, text⟩ (fun _ => halone)]
      exact Option.some_ne_none _

/-- A setting that names a stored row is saved in that row. -/
theorem save_of_id {s : Setting} {e : Document} (he : e ∈ t.documents) (hid : s.id = some e.id)
    (hkey : e.key = s.key) :
    ∃ t', t.save s = (.ok ⟨e.id, s.key, s.value⟩, t') ∧ t'.highest = t.highest := by
  obtain ⟨row, hrow, rfl⟩ := List.mem_map.1 he
  have halone : t.hasUniqueKey = true → ∀ d ∈ t.documents, d.key = s.key → d.id = row.id := by
    intro hunique d hd heq
    have hsame : d = row.document :=
      (orderly.keysDistinct hunique).eq_of_key orderly.ids hd he (heq.trans hkey.symm)
    exact congrArg Document.id hsame
  have hput := put?_eq orderly only (orderly.signed row hrow) halone (some s.value.text)
  refine ⟨{ t with rows := putRow ⟨row.id, s.key, some s.value.text⟩ t.rows,
                   highest := max t.highest row.id }, ?_, ?_⟩
  · rw [save, hid]
    dsimp only [Row.document]
    rw [hput]
  · exact Int.max_eq_left (orderly.bounded row hrow)

/-- A setting without an id gets the next number while one is left, if its key is not stored
or need not be unique. The store must not count on a unique index that is not there. -/
theorem save_new (informed : t.keyUnique = true → t.hasUniqueKey = true) {s : Setting}
    (hid : s.id = none) (hkey : t.hasUniqueKey = true → ∀ e ∈ t.documents, e.key ≠ s.key)
    (hleft : t.highest < Word.maxSigned) :
    ∃ t', t.save s = (.ok ⟨t.highest + 1, s.key, s.value⟩, t') ∧ t'.highest = t.highest + 1 := by
  have hinsert := insertNext?_eq orderly only hkey hleft (some s.value.text)
  -- Where the key is unique, the statement is another one, and it inserts as well.
  have hsaved : (if t.keyUnique then t.upsert? s.key (some s.value.text)
      else t.insertNext? s.key (some s.value.text)) = t.insertNext? s.key (some s.value.text) := by
    by_cases hknown : t.keyUnique = true
    · have hunique := informed hknown
      have hnone : t.rows.find? (·.key == s.key) = none := by
        rw [List.find?_eq_none]
        intro row hrow heq
        exact hkey hunique row.document (List.mem_map_of_mem hrow) (beq_iff_eq.1 heq)
      have hfull : ¬ Word.maxSigned ≤ t.highest := Int.not_le.2 hleft
      rw [if_pos hknown, upsert?, hunique, hnone]
      simp only [Bool.not_true, Bool.false_or, decide_eq_true_eq, if_neg hfull]
    · rw [if_neg hknown]
  refine ⟨{ t with rows := putRow ⟨t.highest + 1, s.key, some s.value.text⟩ t.rows,
                   highest := t.highest + 1 }, ?_, rfl⟩
  rw [save, hid]
  dsimp only
  rw [hsaved, hinsert]

/-- Where only the key is unique, every other setting is saved. -/
theorem save_of_not_refuses (unique : t.hasUniqueKey = true) {s : Setting}
    (signed : ∀ given, s.id = some given → Word.Signed given) (accepts : ¬ t.Refuses s) :
    t.save s ≠ (.error .database, t) := by
  rw [Ne, save_eq_error_iff, statement?]
  unfold Refuses at accepts
  cases hid : s.id with
  | some given =>
      rw [hid] at accepts
      have halone : ∀ d ∈ t.documents, d.key = s.key → d.id = given := by
        intro d hd hkey
        by_contra hne
        exact accepts ⟨d, hd, hkey, hne⟩
      dsimp only
      rw [put?_eq orderly only (signed given hid) (fun _ => halone)]
      exact Option.some_ne_none _
  | none =>
      rw [hid] at accepts
      have hleft : t.highest < Word.maxSigned := Int.not_le.1 fun hfull => accepts (Or.inl hfull)
      dsimp only
      cases hknown : t.keyUnique with
      | true => exact upsert?_ne_none orderly only unique hleft s.key _
      | false =>
          have hnew : ∀ d ∈ t.documents, d.key ≠ s.key := by
            intro d hd hkey
            exact accepts (Or.inr ⟨hknown, d, hd, hkey⟩)
          rw [if_neg (by decide), insertNext?_eq orderly only (fun _ => hnew) hleft]
          exact Option.some_ne_none _

end KeyOnly

/-! ## Repeated keys -/

theorem mem_keys {key : String} : key ∈ t.keys ↔ ∃ row ∈ t.rows, row.key = key := by
  rw [keys, Ordered.mem_sort, List.mem_eraseDups, List.mem_map]

/-- The ids of a key, in the rows and in the documents. -/
theorem ids_documents (t : Table) (key : String) :
    (t.documents.filter (·.key == key)).map (·.id)
      = (t.rows.filter (·.key == key)).map (·.id) := by
  rw [documents, List.filter_map, List.map_map]
  rfl

/-- The ids of a stored key are read back from the text in which the database joins them. -/
theorem group?_eq_some (orderly : t.Orderly) {key : String} (h : key ∈ t.keys) :
    t.group? key = some ⟨key, (t.rows.filter (·.key == key)).map (·.id),
      ((t.rows.filter (·.key == key)).map (·.id)).length⟩ := by
  obtain ⟨row, hrow, hkey⟩ := mem_keys.1 h
  have hne : (t.rows.filter (·.key == key)).map (·.id) ≠ [] := by
    rw [Ne, List.map_eq_nil_iff, List.filter_eq_nil_iff]
    exact fun hall => hall row hrow (beq_iff_eq.2 hkey)
  have hsigned : ∀ id ∈ (t.rows.filter (·.key == key)).map (·.id), Word.Signed id := by
    intro id hid
    obtain ⟨row, hrow, rfl⟩ := List.mem_map.1 hid
    exact orderly.signed row (List.mem_filter.1 hrow).1
  rw [group?, IdList.read?_chars hne hsigned]
  rfl

/-- Where something is found for every item, it is found for all of them. -/
theorem mapM_eq_some_map {α β : Type} {f : α → Option β} {g : α → β} {l : List α}
    (h : ∀ a ∈ l, f a = some (g a)) : l.mapM f = some (l.map g) := by
  induction l with
  | nil => rfl
  | cons a rest ih =>
      obtain ⟨hfirst, hrest⟩ := List.forall_mem_cons.1 h
      rw [List.mapM_cons, hfirst, ih hrest]
      rfl

/-- The groups are made of all keys, each with the ids of its rows. -/
theorem duplicates_eq_ok (orderly : t.Orderly) :
    t.duplicates
      = .ok (groups t.keys fun key => (t.rows.filter (·.key == key)).map (·.id)) := by
  rw [duplicates, groups, mapM_eq_some_map fun key hkey =>
    group?_eq_some orderly (List.mem_filter.1 hkey).1]
  simp only [List.length_map]

theorem nodup_keys (t : Table) : t.keys.Nodup :=
  (Ordered.sort_perm _ _).nodup_iff.2 (Text.nodup_eraseDups _)

theorem reports_duplicates (orderly : t.Orderly) :
    ∃ groups, t.duplicates = .ok groups ∧ Reports groups t.documents := by
  refine ⟨_, duplicates_eq_ok orderly, reports_groups t.nodup_keys (fun d hd => ?_) fun key => ?_⟩
  · obtain ⟨row, hrow, rfl⟩ := List.mem_map.1 hd
    exact mem_keys.2 ⟨row, hrow, rfl⟩
  · exact List.Perm.of_eq (ids_documents t key).symm

/-! ## Requests -/

theorem orderly_answer (orderly : t.Orderly) (request : Request) :
    (backend.answer t request).2.Orderly := by
  cases request with
  | saveSetting s => exact orderly_save orderly s
  | removeSetting id => exact orderly_remove orderly id
  | dropIndex name => exact orderly_dropIndex orderly name
  | createIndex field unique => exact orderly_createIndex orderly field unique
  | createEntity entity =>
      exact ⟨orderly.sorted, orderly.signed, orderly.bounded, orderly.highest,
        orderly.respected⟩
  | _ => exact orderly

theorem sound_answer (sound : t.Sound) (request : Request) :
    (backend.answer t request).2.Sound := by
  cases request with
  | saveSetting s => exact sound_save sound s
  | removeSetting id => exact sound_remove sound id
  | dropIndex name => exact sound_dropIndex sound name
  | createIndex field unique => exact sound_createIndex sound field unique
  | createEntity entity =>
      exact ⟨sound.sorted, sound.signed, sound.bounded, sound.highest, sound.informed,
        sound.respected, sound.named⟩
  | _ => exact sound

end SettingStore.Table
