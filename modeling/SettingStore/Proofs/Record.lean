import SettingStore.Proofs.Json.Reading
import SettingStore.Record

set_option autoImplicit false

/-! # Records that are written and read back

A record that is written reads back as itself, and whatever form a text gives to a record that
is read from it, writing that record makes a text of the same record (`round_trip`). A reader
sees the trees of the members under their names (`fields?_tree`), so that the order in which a
record is written does not matter. What is taken for granted is that the binary64 numbers in the
value of a setting read back.
-/

namespace SettingStore.Record

open Json

variable {α : Type}

/-- The record that a text denotes to a reader. -/
def read? (reader : Tree → Option α) (text : String) : Option α :=
  (Tree.ofText? text).bind reader

/-- A value that was written is read through its tree. -/
theorem read?_text (reader : Tree → Option α) {v : Json} (h : ∀ n ∈ numbers v, n.ReadsBack) :
    read? reader v.text = reader (tree v) := by
  rw [read?, ofText?_tree h, Option.bind_some]

/-! ## Fields of a written record -/

theorem named?_memberTrees (members : List (String × Json)) :
    named? (memberTrees members) = some (members.map fun m => (m.1, tree m.2)) := by
  induction members with
  | nil => rfl
  | cons m rest ih =>
      obtain ⟨name, v⟩ := m
      rw [memberTrees, named?, pieces, text?_pieces, ih]
      dsimp only
      rw [String.ofList_toList]
      rfl

/-- Where every name is given once, a name is given the value of its member. -/
theorem given_map_tree {members : List (String × Json)} (nodup : (members.map (·.1)).Nodup)
    (name : String) :
    given name (members.map fun m => (m.1, tree m.2))
      = ((member? name members).map tree).toList := by
  induction members with
  | nil => rfl
  | cons m rest ih =>
      obtain ⟨other, v⟩ := m
      rw [List.map_cons, List.nodup_cons] at nodup
      have ih := ih nodup.2
      by_cases hsame : name = other
      · -- No member after the first one has the name.
        have hrest : member? name rest = none := by
          rw [member?, List.lookup_eq_none_iff]
          intro m hm
          have hne : m.1 ≠ other := fun h => nodup.1 (List.mem_map.2 ⟨m, hm, h⟩)
          simpa [hsame] using Ne.symm hne
        rw [hrest] at ih
        have hnone : given other (rest.map fun m => (m.1, tree m.2)) = [] := hsame ▸ ih
        subst hsame
        simpa [given, member?] using hnone
      · have hne : (other == name) = false := beq_eq_false_iff_ne.2 (Ne.symm hsame)
        have hne' : (name == other) = false := beq_eq_false_iff_ne.2 hsame
        simpa [given, member?, List.lookup_cons, hne, hne'] using ih

/-- The fields of a written record are the trees of its members. -/
theorem fields?_tree (members : List (String × Json)) (nodup : (members.map (·.1)).Nodup)
    (names : List String) :
    fields? names (tree (.object members))
      = some (names.map fun name => (member? name members).map tree) := by
  rw [tree, fields?, named?_memberTrees, Option.bind_some]
  induction names with
  | nil => rfl
  | cons name rest ih =>
      rw [List.mapM_cons, ih, given_map_tree nodup, List.map_cons]
      cases member? name members <;> rfl

/-! ## Parts of a written record -/

theorem text?_tree (s : String) : text? (tree (.string s)) = some s := by
  rw [tree, text?, pieces, text?_pieces, Option.map_some, String.ofList_toList]

theorem entityId?_tree (id : EntityId) : entityId? (tree (.string id.text)) = some id := by
  rw [entityId?, text?_tree, Option.bind_some, EntityId.ofText?_text]

theorem entityKind?_tree (kind : EntityKind) :
    entityKind? (tree (.string kind.name)) = some kind := by
  rw [tree, entityKind?, pieces, text?_pieces, Option.bind_some, String.ofList_toList,
    EntityKind.ofName?_name]

theorem docId?_tree {id : Int} (signed : Word.Signed id) : docId? (tree (ofInt id)) = some id := by
  have hnumber := (numeral_spec (Number.readsBack_int signed.fits)).2
  rw [ofInt, tree, docId?, hnumber, Option.bind_some, Number.signed?, if_pos signed]

theorem docIdOrNull?_tree {id : Int} (signed : Word.Signed id) :
    docIdOrNull? (tree (ofInt id)) = some (some id) := by
  have hid := docId?_tree signed
  rw [ofInt, tree] at hid ⊢
  rw [docIdOrNull?, hid]
  · rfl
  · simp

/-! ## What a reader answers -/

theorem signed_of_docId? {t : Tree} {id : Int} (h : docId? t = some id) : Word.Signed id := by
  cases t with
  | number n =>
      obtain ⟨number, -, hsigned⟩ := Option.bind_eq_some_iff.1 h
      cases number with
      | int k =>
          rw [Number.signed?] at hsigned
          split at hsigned
          · rename_i hk
            exact Option.some.inj hsigned ▸ hk
          · cases hsigned
      | float x => cases hsigned
  | _ => cases h

theorem signed_of_docIdOrNull? {t : Tree} {id : Int} (h : docIdOrNull? t = some (some id)) :
    Word.Signed id := by
  rw [docIdOrNull?.eq_def] at h
  split at h
  · cases h
  · obtain ⟨given, hgiven, heq⟩ := Option.map_eq_some_iff.1 h
    exact Option.some.inj heq ▸ signed_of_docId? hgiven

/-- A setting that can be written as a record: its id is a 64-bit number, and its value leaves
room for the record around it. -/
structure Proper (s : Setting) : Prop where
  signed : ∀ id, s.id = some id → Word.Signed id
  canonical : s.value.Canonical
  shallow : s.value.depth ≤ 126

theorem proper_of_setting? {t : Tree} {s : Setting} (h : setting? t = some s) : Proper s := by
  rw [setting?] at h
  split at h
  · rename_i id key value hfields
    split at h
    · rename_i id' key' value' hid hkey hvalue
      cases h
      obtain ⟨hcanonical, hdepth⟩ := canonical_of_ofTree? hvalue
      refine ⟨fun given hgiven => ?_, hcanonical, hdepth⟩
      obtain rfl : id' = some given := hgiven
      cases id with
      | none => cases hid
      | some tree => exact signed_of_docIdOrNull? hid
    · cases h
  · cases h

/-! ## Round trips -/

theorem read?_settingText {s : Setting} (proper : Proper s) (floats : s.value.FloatsReadBack) :
    read? setting? (settingText s) = some s := by
  obtain ⟨id, key, value⟩ := s
  have hvalue := readsBack_of_floats proper.canonical floats
  have htree : ofTree? (maxDepth - 1) (tree value) = some value := by
    rw [ofTree?_tree proper.canonical hvalue]
    exact if_pos proper.shallow
  cases id with
  | none =>
      have hnumbers : ∀ n ∈ numbers (.object (settingMembers ⟨none, key, value⟩)), n.ReadsBack := by
        simpa [settingMembers, numbers, memberNumbers] using hvalue
      have hfields := fields?_tree (settingMembers ⟨none, key, value⟩)
        (by simp [settingMembers]) ["_id", "key", "value"]
      rw [settingText, read?_text _ hnumbers, setting?, hfields]
      simp [settingMembers, member?, List.lookup_cons, text?_tree, htree]
  | some id =>
      have hsigned := proper.signed id rfl
      have hnumbers : ∀ n ∈ numbers (.object (settingMembers ⟨some id, key, value⟩)),
          n.ReadsBack := by
        intro n hn
        simp only [settingMembers, numbers, memberNumbers, ofInt, List.cons_append,
          List.nil_append, List.append_nil, List.mem_cons] at hn
        rcases hn with rfl | hn
        · exact Number.readsBack_int hsigned.fits
        · exact hvalue n hn
      have hfields := fields?_tree (settingMembers ⟨some id, key, value⟩)
        (by simp [settingMembers]) ["_id", "key", "value"]
      rw [settingText, read?_text _ hnumbers, setting?, hfields]
      simp [settingMembers, member?, List.lookup_cons, text?_tree, docIdOrNull?_tree hsigned, htree]

theorem read?_entityText (e : Entity) : read? entity? (entityText e) = some e := by
  have hfields := fields?_tree
    [("kind", .string e.kind.name), ("id", .string e.id.text), ("name", .string e.name)]
    (by simp) ["kind", "id", "name"]
  rw [entityText, read?_text _ (by simp [numbers, memberNumbers]), entity?, hfields]
  simp [member?, List.lookup_cons, text?_tree, entityId?_tree, entityKind?_tree]

theorem read?_docIdText {id : Int} (signed : Word.Signed id) :
    read? docId? (docIdText id) = some id := by
  have hnumbers : ∀ n ∈ numbers (ofInt id), n.ReadsBack := by
    intro n hn
    rw [List.mem_singleton.1 hn]
    exact Number.readsBack_int signed.fits
  rw [docIdText, read?_text _ hnumbers, docId?_tree signed]

theorem read?_entityIdText (id : EntityId) : read? entityId? (entityIdText id) = some id := by
  rw [entityIdText, read?_text _ (by simp [numbers]), entityId?_tree]

theorem read?_entityKindText (kind : EntityKind) :
    read? entityKind? (entityKindText kind) = some kind := by
  rw [entityKindText, read?_text _ (by simp [numbers]), entityKind?_tree]

/-- Every record that is written reads back as itself, and every record that is read, from a text
of whatever form, is written as a text of the same record. For settings this needs the binary64
numbers in the value to read back. -/
theorem round_trip :
    (∀ s, Proper s → s.value.FloatsReadBack → read? setting? (settingText s) = some s) ∧
    (∀ e, read? entity? (entityText e) = some e) ∧
    (∀ id, Word.Signed id → read? docId? (docIdText id) = some id) ∧
    (∀ id, read? entityId? (entityIdText id) = some id) ∧
    (∀ kind, read? entityKind? (entityKindText kind) = some kind) ∧
    (∀ text s, read? setting? text = some s → s.value.FloatsReadBack →
      read? setting? (settingText s) = some s) ∧
    (∀ text e, read? entity? text = some e → read? entity? (entityText e) = some e) ∧
    (∀ text id, read? docId? text = some id → read? docId? (docIdText id) = some id) ∧
    (∀ text id, read? entityId? text = some id → read? entityId? (entityIdText id) = some id) ∧
    ∀ text kind, read? entityKind? text = some kind →
      read? entityKind? (entityKindText kind) = some kind := by
  refine ⟨fun s => read?_settingText, read?_entityText, fun id => read?_docIdText,
    read?_entityIdText, read?_entityKindText, fun text s h => ?_, fun _ e _ => read?_entityText e,
    fun text id h => ?_, fun _ id _ => read?_entityIdText id,
    fun _ kind _ => read?_entityKindText kind⟩
  · obtain ⟨t, -, ht⟩ := Option.bind_eq_some_iff.1 h
    exact read?_settingText (proper_of_setting? ht)
  · obtain ⟨t, -, ht⟩ := Option.bind_eq_some_iff.1 h
    exact read?_docIdText (signed_of_docId? ht)

/-- A setting as an array with null for its id. -/
def arrayText : String := "[null, \"k\", [1, true]]"

/-- An entity with its members in another order, one that is passed over, its kind as an object
and its id in another spelling. -/
def mixedText : String :=
  "\x7b\"name\":\"n\",\"x\":[],\"id\":\" AAAAAAAAAAAAAAAAAAAAAAAA\"," ++
    "\"kind\":\x7b\"group\":null\x7d\x7d"

/-- Both are written in the usual form. -/
theorem round_trip_of_other_forms :
    (∃ s, read? setting? arrayText = some s ∧ s.value.FloatsReadBack ∧
      settingText s = "\x7b\"key\":\"k\",\"value\":[1,true]\x7d" ∧
      read? setting? (settingText s) = some s) ∧
    (∃ e, read? entity? mixedText = some e ∧ e.id.text = "aaaaaaaaaaaaaaaaaaaaaaaa" ∧
      read? entity? (entityText e) = some e) ∧
    Word.Signed (-5) ∧ read? docId? (docIdText (-5)) = some (-5) := by
  have hsigned : Word.Signed (-5) := by decide
  have hsetting : read? setting? arrayText
      = some ⟨none, "k", .array [ofInt 1, .bool true]⟩ := by decide +kernel
  have hfloats : (array [ofInt 1, .bool true]).FloatsReadBack := by
    intro x hx
    simp [numbers, itemNumbers, ofInt] at hx
  have hentity : read? entity? mixedText
      = some ⟨.group, ⟨"aaaaaaaaaaaaaaaaaaaaaaaa", by decide⟩, "n"⟩ := by decide +kernel
  obtain ⟨-, -, hdocId, -, -, hsettings, hentities, -⟩ := round_trip
  refine ⟨⟨_, hsetting, hfloats, ?_, hsettings _ _ hsetting hfloats⟩,
    ⟨_, hentity, rfl, hentities _ _ hentity⟩, hsigned, hdocId _ hsigned⟩
  decide +kernel

end SettingStore.Record
