import SettingStore.Proofs.Store.Attainable
import SettingStore.Proofs.Text.ByteOrder

set_option autoImplicit false

/-! # What a store finds

The stores search in different ways. The store in memory compares bytes (`Memory.scan`); a table
compares the characters before the first zero character, and reads the values of the rows only
when it has found and sorted them (`Table.scan`, `Table.first?`). Both come to the listing of the
stored documents (`Memory.scan_eq`, `Table.scan_eq`), which is exact and strictly in order, and
whose first document for a key is the one that is found for it
(`Store.lookup_and_listing_agree`). The keys that are stored more than once are reported with all
their ids (`Store.duplicates_reported_exactly`).
-/

namespace SettingStore

/-! ## What a search consists of -/

/-- By the bytes of the key, and by the id where the keys are the same. -/
def byBytes (a b : String × Int) : Bool :=
  decide (Text.bytes a.1 < Text.bytes b.1) || (a.1 == b.1 && decide (a.2 ≤ b.2))

/-- The key is the one that the filter asks for, and begins with the text that it asks for, as
`begins` decides. -/
def Filter.meets (f : Filter) (begins : String → String → Bool) (key : String) : Bool :=
  f.key.all (key == ·) && f.start.all (begins · key)

/-- The filter admits what meets it, if the test for a beginning is right for its text. -/
theorem Filter.meets_eq_admits {f : Filter} {begins : String → String → Bool} {d : Document}
    (right : ∀ start, f.start = some start →
      (begins start d.key = true ↔ start.toList <+: d.key.toList)) :
    f.meets begins d.key = f.admits d := by
  rw [Bool.eq_iff_iff, Document.admits_iff, Filter.meets, Bool.and_eq_true, Option.all_eq_true,
    Option.all_eq_true]
  refine and_congr ?_ (forall₂_congr right)
  simp only [beq_iff_eq]

namespace Document

/-- The order by bytes is the order of listings. -/
theorem byBytes_eq (d e : Document) : byBytes (d.key, d.id) (e.key, e.id) = notAfter d e := by
  rw [Bool.eq_iff_iff, byBytes, Bool.or_eq_true, Bool.and_eq_true, decide_eq_true_eq,
    decide_eq_true_eq, beq_iff_eq, Text.bytes_lt_iff, notAfter]
  by_cases hkey : d.key = e.key
  · simp [hkey]
  · simp [hkey]

/-- The lowest document is the first one when they are sorted by their ids. -/
theorem head?_sort_eq_lowest? (docs : List Document) :
    (Ordered.sort (fun d e => decide (d.id ≤ e.id)) docs).head? = lowest? docs := by
  induction docs with
  | nil => rfl
  | cons d rest ih =>
      rw [Ordered.sort, lowest?, ← ih]
      cases Ordered.sort (fun d e : Document => decide (d.id ≤ e.id)) rest with
      | nil => rfl
      | cons e others =>
          rw [Ordered.insert, List.head?_cons]
          by_cases hle : d.id ≤ e.id <;> simp [hle]

end Document

/-! ## Searching in memory -/

namespace Memory

/-- The bytes of the key begin with those of the text. -/
def begins (start key : String) : Bool := (Text.bytes start).isPrefixOf (Text.bytes key)

/-- The documents that the store in memory lists. -/
def scan (m : Memory) (f : Filter) : List Document :=
  Ordered.sort (fun d e => byBytes (d.key, d.id) (e.key, e.id))
    (m.documents.filter fun d => f.meets begins d.key)

theorem begins_iff {start key : String} :
    begins start key = true ↔ start.toList <+: key.toList := by
  rw [begins, List.isPrefixOf_iff_prefix, Text.bytes_prefix_iff]

theorem scan_eq (m : Memory) (f : Filter) : m.scan f = Document.list f m.documents := by
  have hfilter : m.documents.filter (fun d => f.meets begins d.key)
      = m.documents.filter f.admits :=
    List.filter_congr fun d _ => Filter.meets_eq_admits fun _ _ => begins_iff
  rw [scan, Document.list, hfilter]
  exact congrArg (Ordered.sort · _) (funext₂ Document.byBytes_eq)

end Memory

/-! ## Searching in a table -/

namespace Table

/-- The characters that the database sees when it counts: those before the first zero. -/
def counted (s : String) : List Char := s.toList.takeWhile (· != '\x00')

/-- As many characters of the key as the text has are the text. -/
def begins (start key : String) : Bool :=
  (counted key).take (counted start).length == start.toList

/-- The documents of the rows that a table lists. -/
def scan (t : Table) (f : Filter) : List Document :=
  (Ordered.sort (fun a b => byBytes (a.key, a.id) (b.key, b.id))
    (t.rows.filter fun row => f.meets begins row.key)).map Row.document

/-- The document of the first row of a key. -/
def first? (t : Table) (key : String) : Option Document :=
  (Ordered.sort (fun a b => decide (a.id ≤ b.id)) (t.rows.filter (·.key == key))).head?.map
    Row.document

/-- This is the right test for a text without zeros. A key with a zero among its first characters
fails it, and does not begin with the text either. -/
theorem begins_iff {start key : String} (plain : '\x00' ∉ start.toList) :
    begins start key = true ↔ start.toList <+: key.toList := by
  have hother : ∀ c ∈ start.toList, (c != '\x00') = true := fun c hc =>
    bne_iff_ne.2 fun heq => plain (heq ▸ hc)
  have hstart : counted start = start.toList := List.takeWhile_eq_self_iff.2 hother
  rw [begins, beq_iff_eq, hstart, eq_comm, ← List.prefix_iff_eq_take]
  -- Where the key begins with the text, none of the characters that are compared is a zero.
  constructor
  · exact fun h => h.trans (List.takeWhile_prefix _)
  · rintro ⟨rest, hrest⟩
    rw [counted, ← hrest, List.takeWhile_append_of_pos hother]
    exact List.prefix_append _ _

theorem scan_eq (t : Table) {f : Filter}
    (plain : ∀ start, f.start = some start → '\x00' ∉ start.toList) :
    t.scan f = Document.list f t.documents := by
  have hrows : t.rows.filter (fun row => f.meets begins row.key)
      = t.rows.filter (f.admits ∘ Row.document) :=
    List.filter_congr fun row _ =>
      Filter.meets_eq_admits (d := row.document) fun start hstart => begins_iff (plain start hstart)
  have horder : (fun a b : Row => byBytes (a.key, a.id) (b.key, b.id))
      = fun a b => Document.notAfter a.document b.document :=
    funext₂ fun a b => Document.byBytes_eq a.document b.document
  rw [scan, hrows, horder, ← Ordered.sort_map, ← List.filter_map]
  rfl

theorem first?_eq (t : Table) (key : String) :
    t.first? key = Document.find? key t.documents := by
  -- The rows are sorted by their numbers, which are the ids of their documents.
  have hsort := Ordered.sort_map Row.document (fun d e => decide (d.id ≤ e.id))
    (t.rows.filter ((·.key == key) ∘ Row.document))
  rw [← List.filter_map] at hsort
  rw [Document.find?, ← Document.head?_sort_eq_lowest?, documents, hsort, List.head?_map]
  rfl

end Table

/-! ## Either store -/

namespace Store

/-- What a store finds when it lists. -/
def scan : (store : Store) → store.State → Filter → List Document
  | .memory, m, f => m.scan f
  | .table, t, f => t.scan f

/-- What a store finds for a key. -/
def first? : (store : Store) → store.State → String → Option Document
  | .memory, m, key => Document.find? key m.documents
  | .table, t, key => t.first? key

theorem scan_eq (store : Store) (state : store.State) {f : Filter}
    (plain : ∀ start, f.start = some start → '\x00' ∉ start.toList) :
    store.scan state f = Document.list f (store.documents state) := by
  cases store with
  | memory => exact Memory.scan_eq state f
  | table => exact Table.scan_eq state plain

theorem first?_eq (store : Store) (state : store.State) (key : String) :
    store.first? state key = Document.find? key (store.documents state) := by
  cases store with
  | memory => rfl
  | table => exact Table.first?_eq state key

/-- A listing holds exactly the stored documents that have the key and whose key begins with the
text, whatever characters these are, each once and in the order of the bytes of the keys and then
of the ids. What is found for a key is the first document of its listing. -/
theorem lookup_and_listing_agree (store : Store) {state : store.State}
    (attainable : store.Attainable state) :
    (∀ f : Filter, (∀ start, f.start = some start → '\x00' ∉ start.toList) →
      store.backend.answer state (.listSettings f) = (.ok (store.scan state f), state) ∧
      (store.scan state f).Pairwise (fun d e =>
        Text.bytes d.key < Text.bytes e.key ∨ (d.key = e.key ∧ d.id < e.id)) ∧
      ∀ d, d ∈ store.scan state f ↔ d ∈ store.documents state ∧
        (∀ key, f.key = some key → d.key = key) ∧
        ∀ start, f.start = some start → start.toList <+: d.key.toList) ∧
    ∀ key,
      store.backend.answer state (.findSetting key) = (.ok (store.first? state key), state) ∧
      store.first? state key = (store.scan state ⟨some key, none⟩).head? := by
  have hids := attainable.orderly.ids
  refine ⟨fun f plain => ?_, fun key => ?_⟩
  · rw [scan_eq store state plain]
    refine ⟨answer_listSettings store state f, ?_, fun d => ?_⟩
    · exact (Document.list_increases f hids).imp fun h => h.imp_left Text.bytes_lt_iff.2
    · rw [Document.mem_list, Document.admits_iff]
  · rw [first?_eq, scan_eq store state (by simp)]
    exact ⟨answer_findSetting store state key, Document.find?_eq_head?_list key hids⟩

/-- Keys with a character that other searches would take for any others, one of them stored
twice. -/
def wildcardKeys : List Request :=
  [.saveSetting ⟨none, "a%", .null⟩, .saveSetting ⟨none, "ab", .null⟩,
    .saveSetting ⟨none, "a%", .bool true⟩]

/-- The table lists the two documents of the one key under the text, and finds the first. -/
theorem lookup_and_listing_agree_of_wildcardKeys :
    table.Attainable (table.backend.after wildcardKeys table.empty) ∧
    (∀ start, some "a%" = some start → '\x00' ∉ start.toList) ∧
    (∀ d, d ∈ table.scan (table.backend.after wildcardKeys table.empty) ⟨none, some "a%"⟩ ↔
      d = ⟨1, "a%", .null⟩ ∨ d = ⟨3, "a%", .bool true⟩) ∧
    table.first? (table.backend.after wildcardKeys table.empty) "a%"
      = (table.scan (table.backend.after wildcardKeys table.empty) ⟨some "a%", none⟩).head? := by
  have hattainable : table.Attainable (table.backend.after wildcardKeys table.empty) :=
    (Reachable.empty.after wildcardKeys).attainable
  have hplain : ∀ start, some "a%" = some start → '\x00' ∉ start.toList := by
    rintro start ⟨⟩
    decide
  have hdocuments : table.documents (table.backend.after wildcardKeys table.empty)
      = [⟨1, "a%", .null⟩, ⟨2, "ab", .null⟩, ⟨3, "a%", .bool true⟩] := rfl
  obtain ⟨hlisting, hfinding⟩ := lookup_and_listing_agree .table hattainable
  refine ⟨hattainable, hplain, fun d => ?_, (hfinding "a%").2⟩
  rw [(hlisting ⟨none, some "a%"⟩ hplain).2.2 d, hdocuments]
  constructor
  · rintro ⟨hd, -, hstart⟩
    have hbegins := hstart "a%" rfl
    simp only [List.mem_cons, List.not_mem_nil, or_false] at hd
    rcases hd with rfl | rfl | rfl
    · exact Or.inl rfl
    · exact absurd hbegins (by decide)
    · exact Or.inr rfl
  · rintro (rfl | rfl)
    · exact ⟨by simp, by simp, by rintro start ⟨⟩; decide⟩
    · exact ⟨by simp, by simp, by rintro start ⟨⟩; decide⟩

/-! ## Repeated keys -/

/-- One group is reported for every key that is stored more than once and for no other key; it
has the ids of all documents of the key, each once, and their number. The text in which a table
joins any ids that are 64-bit numbers is read back as these ids. -/
theorem duplicates_reported_exactly (store : Store) {state : store.State}
    (attainable : store.Attainable state) :
    (∃ groups, store.backend.answer state .listDuplicates = (.ok groups, state) ∧
      (groups.map (·.key)).Nodup ∧
      (∀ key, (∃ group ∈ groups, group.key = key) ↔
        1 < ((store.documents state).filter (·.key == key)).length) ∧
      ∀ group ∈ groups, group.ids.Nodup ∧
        (∀ id, id ∈ group.ids ↔ ∃ d ∈ store.documents state, d.key = group.key ∧ d.id = id) ∧
        group.count = ((store.documents state).filter (·.key == group.key)).length ∧
        group.ids.length = group.count) ∧
    ∀ ids : List Int, ids ≠ [] → (∀ id ∈ ids, Word.Signed id) →
      IdList.read? (IdList.chars ids) = some ids := by
  obtain ⟨groups, hanswer, hreports⟩ := answer_listDuplicates_reports attainable.orderly
  refine ⟨⟨groups, hanswer, hreports.keys, hreports.repeated, fun group hgroup => ?_⟩,
    fun ids hne hsigned => IdList.read?_chars hne hsigned⟩
  have hperm := hreports.ids group hgroup
  have hcount := hreports.count group hgroup
  refine ⟨?_, fun id => ?_, hcount, ?_⟩
  · rw [hperm.nodup_iff]
    exact attainable.orderly.ids.nodup_ids_of_key group.key
  · rw [hperm.mem_iff, Document.mem_ids_of_key]
  · rw [hcount, hperm.length_eq, List.length_map]

/-- A key that is stored three times, also under ids below zero, and another one. -/
def repeatedKey : List Request :=
  [.saveSetting ⟨some (-4), "a", .null⟩, .saveSetting ⟨none, "b", .null⟩,
    .saveSetting ⟨some (-11), "a", .null⟩, .saveSetting ⟨none, "a", .null⟩]

/-- The ids that a table reports for the key are its three ids, and the text of two of them is
read back. -/
theorem duplicates_reported_exactly_of_repeatedKey :
    table.Attainable (table.backend.after repeatedKey table.empty) ∧
    (∃ groups, table.backend.answer (table.backend.after repeatedKey table.empty) .listDuplicates
        = (.ok groups, table.backend.after repeatedKey table.empty) ∧
      ∃ group ∈ groups, group.key = "a" ∧ group.count = 3 ∧
        ∀ id, id ∈ group.ids ↔ id = -11 ∨ id = -4 ∨ id = 2) ∧
    IdList.read? (IdList.chars [-4, 2]) = some [-4, 2] := by
  have hattainable : table.Attainable (table.backend.after repeatedKey table.empty) :=
    (Reachable.empty.after repeatedKey).attainable
  have hdocuments : table.documents (table.backend.after repeatedKey table.empty)
      = [⟨-11, "a", .null⟩, ⟨-4, "a", .null⟩, ⟨1, "b", .null⟩, ⟨2, "a", .null⟩] := rfl
  obtain ⟨⟨groups, hanswer, -, hrepeated, hgroups⟩, hread⟩ :=
    duplicates_reported_exactly .table hattainable
  obtain ⟨group, hgroup, hkey⟩ := (hrepeated "a").2 (by decide)
  obtain ⟨-, hids, hcount, -⟩ := hgroups group hgroup
  rw [hkey, hdocuments] at hids hcount
  refine ⟨hattainable, ⟨groups, hanswer, group, hgroup, hkey, hcount, fun id => ?_⟩,
    hread [-4, 2] (by decide) (by decide)⟩
  rw [hids]
  simp [eq_comm]

end Store

end SettingStore
