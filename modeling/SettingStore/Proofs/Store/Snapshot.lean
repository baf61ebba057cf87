import SettingStore.Proofs.Json.Storable
import SettingStore.Proofs.Store.Either
import SettingStore.Store.Table.Snapshot

set_option autoImplicit false

/-! # Tables in a file

Between two runs of the program the table is a text in a file. Every table that requests lead to
is read back from its text, together with what it knows about a unique index
(`ofSnapshot?_snapshot`).
-/

namespace SettingStore.Table

open Json

/-! ## Parts of a table -/

theorem row?_rowValue {row : Row} (signed : Word.Signed row.id) :
    row? (rowValue row) = some row := by
  obtain ⟨id, key, text⟩ := row
  have hid : (ofInt id).signed? = some id := if_pos signed
  cases text with
  | none => simp [rowValue, row?, hid]
  | some text => simp [rowValue, row?, hid]

theorem ofExpression?_expression (column : Column) :
    Column.ofExpression? column.expression = some column := by
  cases column <;> decide

/-- Items that were written one by one are read one by one. -/
theorem mapM_map_eq_some {α β : Type} {write : α → β} {read : β → Option α} {l : List α}
    (h : ∀ a ∈ l, read (write a) = some a) : (l.map write).mapM read = some l := by
  have hread : l.mapM (read ∘ write) = some (l.map id) := mapM_eq_some_map h
  rw [List.mapM_map, hread, List.map_id]

theorem index?_indexValue (index : ColumnIndex) : index? (indexValue index) = some index := by
  obtain ⟨name, columns, unique⟩ := index
  have hcolumns : (columns.map fun c => string c.expression).mapM
      (fun c => (Json.string? c).bind Column.ofExpression?) = some columns :=
    mapM_map_eq_some fun c _ => ofExpression?_expression c
  simp only [indexValue, index?, hcolumns, Option.map_some]

theorem entity?_entityValue (e : Entity) : Table.entity? (entityValue e) = some e := by
  simp only [entityValue, Table.entity?, EntityKind.ofName?_name, EntityId.ofText?_text]

/-! ## The whole table -/

/-- The value can be stored, at most so many levels deep. -/
def Flat (depth : Nat) (v : Json) : Prop := v.Storable ∧ v.depth ≤ depth

theorem Flat.mono {depth depth' : Nat} {v : Json} (h : Flat depth v) (hle : depth ≤ depth') :
    Flat depth' v := ⟨h.1, Nat.le_trans h.2 hle⟩

theorem flat_null : Flat 0 null :=
  ⟨⟨trivial, fun _ hx => absurd hx List.not_mem_nil, Nat.zero_le _⟩, Nat.le_refl _⟩

theorem flat_bool (b : Bool) : Flat 0 (bool b) :=
  ⟨⟨trivial, fun _ hx => absurd hx List.not_mem_nil, Nat.zero_le _⟩, Nat.le_refl _⟩

theorem flat_ofInt {n : Int} (signed : Word.Signed n) : Flat 0 (ofInt n) :=
  ⟨storable_ofInt signed, Nat.le_refl _⟩

theorem flat_string (s : String) : Flat 0 (string s) := ⟨storable_string s, Nat.le_refl _⟩

theorem flat_array {depth : Nat} (hdepth : depth < maxDepth) {items : List Json}
    (h : ∀ v ∈ items, Flat depth v) : Flat (depth + 1) (array items) := by
  have hshallow : depthList items < depth + 1 :=
    (depthList_lt_iff (Nat.succ_pos depth)).2 fun v hv => Nat.lt_succ_of_le (h v hv).2
  refine ⟨storable_array_iff.2 fun v hv => ⟨(h v hv).1, ?_⟩, hshallow⟩
  exact Nat.lt_of_le_of_lt (h v hv).2 hdepth

theorem flat_rowValue {row : Row} (signed : Word.Signed row.id) : Flat 1 (rowValue row) := by
  refine flat_array (by decide) ?_
  have htext : Flat 0 ((row.text.map Json.string).getD .null) := by
    cases row.text with
    | none => exact flat_null
    | some text => exact flat_string text
  simp [flat_ofInt signed, htext, flat_string]

theorem flat_indexValue (index : ColumnIndex) : Flat 2 (indexValue index) := by
  refine flat_array (by decide) ?_
  have hcolumns : Flat 1 (array (index.columns.map fun c => string c.expression)) := by
    refine flat_array (by decide) fun v hv => ?_
    obtain ⟨c, -, rfl⟩ := List.mem_map.1 hv
    exact flat_string _
  have hname := (flat_string index.name).mono (Nat.zero_le 1)
  have hunique := (flat_bool index.unique).mono (Nat.zero_le 1)
  simp [hname, hcolumns, hunique]

theorem flat_entityValue (e : Entity) : Flat 1 (entityValue e) := by
  refine flat_array (by decide) ?_
  simp [flat_string]

/-- The members of the text of a table. -/
def members (t : Table) : List (String × Json) :=
  [("entities", .array (t.entities.map entityValue)), ("highest", .ofInt t.highest),
    ("indexes", .array (t.indexes.map indexValue)), ("rows", .array (t.rows.map rowValue))]

variable {t : Table}

theorem signed_highest (sound : t.Sound) : Word.Signed t.highest := by
  refine ⟨?_, sound.highest.2⟩
  have hzero := sound.highest.1
  unfold Word.minSigned
  omega

theorem storable_members (sound : t.Sound) : (object t.members).Storable := by
  have hentities : Flat 2 (array (t.entities.map entityValue)) := by
    refine flat_array (by decide) fun v hv => ?_
    obtain ⟨e, -, rfl⟩ := List.mem_map.1 hv
    exact flat_entityValue e
  have hindexes : Flat 3 (array (t.indexes.map indexValue)) := by
    refine flat_array (by decide) fun v hv => ?_
    obtain ⟨index, -, rfl⟩ := List.mem_map.1 hv
    exact flat_indexValue index
  have hrows : Flat 2 (array (t.rows.map rowValue)) := by
    refine flat_array (by decide) fun v hv => ?_
    obtain ⟨row, hrow, rfl⟩ := List.mem_map.1 hv
    exact flat_rowValue (sound.signed row hrow)
  have hhighest := flat_ofInt (signed_highest sound)
  have hall : ∀ m ∈ t.members, Flat 3 m.2 := by
    simp [members, hentities.mono (Nat.le_succ 2), hhighest.mono (Nat.zero_le 3), hindexes,
      hrows.mono (Nat.le_succ 2)]
  refine storable_object_iff.2 ⟨?_, fun m hm => ⟨(hall m hm).1, ?_⟩⟩
  · have hnames : (t.members.map (·.1)).Pairwise (· < ·) := by
      show (["entities", "highest", "indexes", "rows"] : List String).Pairwise (· < ·)
      decide
    exact List.pairwise_map.1 hnames
  · exact Nat.lt_of_le_of_lt (hall m hm).2 (by decide)

/-- The text of a sound table is read as the table. -/
theorem ofSnapshot?_snapshot (sound : t.Sound) : ofSnapshot? t.snapshot = some t := by
  have hread : ofText? t.snapshot = some (object t.members) := (storable_members sound).read
  have hfull : ¬ t.snapshot.isEmpty = true := by
    intro hempty
    have hnone : ofText? "" = none := by decide
    rw [String.isEmpty_iff.1 hempty, hnone] at hread
    cases hread
  have hrows : (t.rows.map rowValue).mapM row? = some t.rows :=
    mapM_map_eq_some fun row hrow => row?_rowValue (sound.signed row hrow)
  have hindexes : (t.indexes.map indexValue).mapM index? = some t.indexes :=
    mapM_map_eq_some fun index _ => index?_indexValue index
  have hentities : (t.entities.map entityValue).mapM Table.entity? = some t.entities :=
    mapM_map_eq_some fun e _ => entity?_entityValue e
  have hhighest : (member? "highest" t.members).bind Json.signed? = some t.highest :=
    if_pos (signed_highest sound)
  have hitems : items? "rows" t.members = some (t.rows.map rowValue) ∧
      items? "indexes" t.members = some (t.indexes.map indexValue) ∧
      items? "entities" t.members = some (t.entities.map entityValue) := ⟨rfl, rfl, rfl⟩
  calc ofSnapshot? t.snapshot
      = some (opened ⟨t.rows, t.highest, t.indexes, t.entities, false⟩) := by
        rw [ofSnapshot?, if_neg hfull, hread]
        simp only [hitems, hrows, hindexes, hentities, hhighest, Option.bind_eq_bind,
          Option.bind_some, Option.pure_def]
    _ = some t.opened := rfl
    _ = some t := by rw [sound.opened]

end SettingStore.Table
