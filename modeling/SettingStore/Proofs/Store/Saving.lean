import Mathlib.Data.List.Infix
import Mathlib.Data.Set.Pairwise.List
import SettingStore.Proofs.Store.UniqueIndexes

set_option autoImplicit false

/-! # Saving in the table, from end to end

The table saves a setting by one of three statements, which it picks by the id of the setting
and by what it knows about a unique index on the key. After any requests it knows the truth, so
that all three come to the same: one row is put in its place (`statement?_eq`). The save fails
exactly where that would breach a unique index that is reported, or where a new number is needed
and the greatest one has been used up (`save_after`). Numbers are used up by the rows that are
stored under them, and also by every update of a stored key without an id (`Spent`).
-/

namespace SettingStore.Table

variable {t t' : Table}

/-! ## One statement in place of three -/

/-- A unique index on the key alone is reported. -/
def ReportsUniqueKey (t : Table) : Prop :=
  ∃ index ∈ t.indexes.map (·.report), index.isUniqueOn Service.keyField = true

/-- The row is the one that the setting replaces: the row with its id, or, where it has none and
the key is reported to be unique, the row with its key. -/
def Replaced (t : Table) (s : Setting) (row : Row) : Prop :=
  s.id = some row.id ∨ (s.id = none ∧ t.ReportsUniqueKey ∧ row.key = s.key)

/-- The number under which a setting is saved. -/
def target (t : Table) (s : Setting) : Int :=
  match s.id with
  | some id => id
  | none =>
      match t.rows.find? (·.key == s.key) with
      | some row => if t.hasUniqueKey then row.id else t.highest + 1
      | none => t.highest + 1

/-- The highest number once a setting is saved. An update of a stored key uses one up. -/
def raised (t : Table) (s : Setting) : Int :=
  match s.id with
  | some id => max t.highest id
  | none => t.highest + 1

/-- The row that a setting becomes. -/
def savedRow (t : Table) (s : Setting) : Row := ⟨t.target s, s.key, some s.value.text⟩

/-- No number is left for a setting without an id. -/
def Exhausted (t : Table) (s : Setting) : Prop := s.id = none ∧ Word.maxSigned ≤ t.highest

instance (t : Table) (s : Setting) : Decidable (t.Exhausted s) :=
  inferInstanceAs (Decidable (_ ∧ _))

theorem target_of_id {s : Setting} {id : Int} (h : s.id = some id) : t.target s = id := by
  rw [target, h]

theorem raised_of_id {s : Setting} {id : Int} (h : s.id = some id) :
    t.raised s = max t.highest id := by
  rw [raised, h]

theorem raised_of_none {s : Setting} (h : s.id = none) : t.raised s = t.highest + 1 := by
  rw [raised, h]

/-- A setting without an id is saved under the number of the row with its key where keys are
unique, and under the next number where there is no such row. -/
theorem target_cases (t : Table) {s : Setting} (h : s.id = none) :
    (∃ row, t.hasUniqueKey = true ∧ t.rows.find? (·.key == s.key) = some row ∧
      t.target s = row.id) ∨
    ((t.hasUniqueKey = true → t.rows.find? (·.key == s.key) = none) ∧
      t.target s = t.highest + 1) := by
  unfold target
  rw [h]
  dsimp only
  cases hfound : t.rows.find? (·.key == s.key) with
  | none => exact Or.inr ⟨fun _ => rfl, rfl⟩
  | some row =>
      by_cases hunique : t.hasUniqueKey = true
      · exact Or.inl ⟨row, hunique, rfl, if_pos hunique⟩
      · exact Or.inr ⟨fun h => absurd h hunique, if_neg hunique⟩

/-- Whichever statement is picked, it puts the row of the setting in its place. -/
theorem statement?_eq (informed : t.keyUnique = t.hasUniqueKey) {s : Setting}
    (signed : ∀ id, s.id = some id → Word.Signed id) :
    t.statement? s =
      if t.Exhausted s then none
      else (t.withRows? (putRow (t.savedRow s) t.rows) (t.raised s)).map fun t' =>
        (t.target s, t') := by
  cases hid : s.id with
  | some id =>
      have hleft : ¬ t.Exhausted s := fun h => Option.some_ne_none id (hid.symm.trans h.1)
      rw [if_neg hleft, savedRow, target_of_id hid, raised_of_id hid, statement?, hid]
      exact if_pos (signed id hid)
  | none =>
      by_cases hfull : Word.maxSigned ≤ t.highest
      · rw [if_pos ⟨hid, hfull⟩, statement?, hid]
        simp [upsert?, insertNext?, hfull]
      · rw [if_neg fun h => hfull h.2, savedRow, raised_of_none hid, statement?, hid, informed]
        rcases target_cases t hid with ⟨row, hunique, hfound, htarget⟩ | ⟨hnone, htarget⟩
        · simp [upsert?, hunique, hfull, hfound, htarget]
        · -- Where keys are unique, the key is not stored, and both statements insert the row.
          have hinsert : (if t.hasUniqueKey then t.upsert? s.key (some s.value.text)
              else t.insertNext? s.key (some s.value.text))
                = t.insertNext? s.key (some s.value.text) := by
            by_cases hunique : t.hasUniqueKey = true
            · simp [upsert?, hunique, hfull, hnone hunique]
            · exact if_neg hunique
          rw [htarget]
          exact hinsert.trans (if_neg hfull)

/-! ## Breaches -/

/-- Another row than the one that is replaced holds, in a column on which a unique index is
reported, what it would hold with the key and the value of the setting. -/
def Breaches (t : Table) (s : Setting) : Prop :=
  ∃ index ∈ t.indexes.map (·.report), ∃ field column, index.isUniqueOn field = true ∧
    Column.ofField? field = some column ∧
    ∃ row ∈ t.rows, ¬ t.Replaced s row ∧
      column.content row = column.content { row with key := s.key, text := some s.value.text }

/-- What a row holds in a column is a matter of its key and its text. -/
theorem content_congr {a b : Row} (key : a.key = b.key) (text : a.text = b.text)
    (column : Column) : column.content a = column.content b := by
  cases column with
  | key => exact congrArg some key
  | value => exact text
  | lowerKey => exact congrArg (fun key => some (Text.asciiLowerCase key)) key
  | lowerValue => exact congrArg (Option.map Text.asciiLowerCase) text

/-- Where rows hold different things in a column, they still do after another row was put in its
place exactly if no row that stays holds the same as that one. -/
theorem pairwise_content_putRow_iff {rows : List Row}
    (sorted : rows.Pairwise fun a b => a.id < b.id) {column : Column}
    (apart : rows.Pairwise fun a b => column.content a ≠ column.content b) (row : Row) :
    ((putRow row rows).Pairwise fun a b => column.content a ≠ column.content b) ↔
      ∀ other ∈ rows, other.id ≠ row.id → column.content other ≠ column.content row := by
  have hnodup : ∀ {rows : List Row}, (rows.Pairwise fun a b => a.id < b.id) → rows.Nodup :=
    fun h => h.imp fun {a b} hlt heq => absurd (congrArg Row.id heq) (Int.ne_of_lt hlt)
  have hsymm : Std.Symm fun a b : Row => column.content a ≠ column.content b :=
    ⟨fun _ _ h => h.symm⟩
  rw [← List.Nodup.pairwise_coe (hnodup (putRow_pairwise row sorted))]
  rw [← List.Nodup.pairwise_coe (hnodup sorted)] at apart
  constructor
  · intro h other hother hne
    exact h ((mem_putRow sorted).2 (Or.inr ⟨hother, hne⟩)) ((mem_putRow sorted).2 (Or.inl rfl))
      fun heq => hne (congrArg Row.id heq)
  · intro h a ha b hb hab
    rcases (mem_putRow sorted).1 ha with rfl | ⟨hina, hida⟩
    · rcases (mem_putRow sorted).1 hb with rfl | ⟨hinb, hidb⟩
      · exact absurd rfl hab
      · exact (h b hinb hidb).symm
    · rcases (mem_putRow sorted).1 hb with rfl | ⟨hinb, hidb⟩
      · exact h a hina hida
      · exact apart hina hinb hab

theorem reportsUniqueKey_iff : t.ReportsUniqueKey ↔ t.hasUniqueKey = true := hasUniqueKey_iff.symm

/-- The row that a setting replaces is the one with the number under which it is saved. -/
theorem replaced_iff (orderly : t.Orderly) {s : Setting} {row : Row} (hrow : row ∈ t.rows) :
    t.Replaced s row ↔ row.id = t.target s := by
  rw [Replaced, reportsUniqueKey_iff]
  cases hid : s.id with
  | some id =>
      rw [target_of_id hid]
      simp only [Option.some.injEq, reduceCtorEq, false_and, or_false]
      exact eq_comm
  | none =>
      have hbound := orderly.bounded row hrow
      rcases target_cases t hid with ⟨first, hunique, hfound, htarget⟩ | ⟨hnone, htarget⟩
      · have hfirst : first ∈ t.rows := List.mem_of_find?_eq_some hfound
        have hkey : first.key = s.key := by simpa using List.find?_some hfound
        rw [htarget, ← hkey]
        simp only [reduceCtorEq, false_or, true_and, hunique]
        constructor
        · intro hsame
          have hdocument := (orderly.keysDistinct hunique).eq_of_key orderly.ids
            (List.mem_map_of_mem hrow) (List.mem_map_of_mem hfirst) hsame
          exact congrArg Document.id hdocument
        · intro hsame
          have hdocument := orderly.ids.eq_of_id (List.mem_map_of_mem hrow)
            (List.mem_map_of_mem hfirst) hsame
          exact congrArg Document.key hdocument
      · have hnew : row.id ≠ t.highest + 1 := by omega
        have hne : t.hasUniqueKey = true → row.key ≠ s.key := fun hunique hkey =>
          List.find?_eq_none.1 (hnone hunique) row hrow (beq_iff_eq.2 hkey)
        rw [htarget]
        simpa [hnew] using hne

/-- The row of a setting can be put in its place exactly if that breaches no index. -/
theorem respected_savedRow_iff (sound : t.Sound) (written : t.Written) {s : Setting} :
    (∀ index ∈ t.indexes, index.Respected (putRow (t.savedRow s) t.rows)) ↔ ¬ t.Breaches s := by
  have hholds : ∀ {column}, (column = .key ∨ column = .value) →
      ∀ row ∈ putRow (t.savedRow s) t.rows, ∃ text, Column.content row column = some text := by
    intro column hcolumn row hrow
    rcases (mem_putRow sound.sorted).1 hrow with rfl | ⟨hrow, -⟩
    · rcases hcolumn with rfl | rfl <;> exact ⟨_, rfl⟩
    · exact written.content hrow hcolumn
  -- An index is respected exactly if no row that stays holds what the setting would.
  have hindex : ∀ {name column}, (column = .key ∨ column = .value) →
      (⟨name, [column], true⟩ : ColumnIndex) ∈ t.indexes →
      (ColumnIndex.Respected ⟨name, [column], true⟩ (putRow (t.savedRow s) t.rows) ↔
        ∀ row ∈ t.rows, ¬ t.Replaced s row →
          column.content row ≠ column.content (t.savedRow s)) := by
    intro name column hcolumn hmem
    have hapart := (respected_iff fun row hrow => written.content hrow hcolumn).1
      (sound.respected _ hmem) rfl
    rw [respected_iff (hholds hcolumn), imp_iff_right rfl,
      pairwise_content_putRow_iff sound.sorted hapart]
    refine forall₂_congr fun row hrow => imp_congr_left ?_
    exact not_congr (replaced_iff sound.orderly hrow).symm
  have hsame : ∀ (column : Column) (row : Row),
      column.content (t.savedRow s)
        = column.content { row with key := s.key, text := some s.value.text } :=
    fun column _ => content_congr rfl rfl column
  constructor
  · rintro hrespected ⟨report, hreport, field, column, hunique, hfield, row, hrow, hother, heq⟩
    obtain ⟨name, covered, hcovered, hlabel, hmem⟩ := sound.reported hreport hunique
    obtain rfl : covered = column := Option.some.inj (hlabel.symm.trans hfield)
    exact (hindex hcovered hmem).1 (hrespected _ hmem) row hrow hother
      (heq.trans (hsame covered row).symm)
  · intro hbreaches index hmem
    obtain ⟨column, unique, hcolumn, rfl⟩ := sound.named index hmem
    cases unique with
    | false => exact fun hunique => absurd hunique (by simp)
    | true =>
        refine (hindex hcolumn hmem).2 fun row hrow hother heq => hbreaches ?_
        refine ⟨_, List.mem_map_of_mem hmem, column.label, column,
          Index.isUniqueOn_iff.2 ⟨rfl, rfl⟩, ofField?_label hcolumn, row, hrow, hother,
          heq.trans (hsame column row)⟩

/-! ## One save -/

/-- Only a 64-bit number can be the id of a setting that is saved. -/
theorem signed_of_save (orderly : t.Orderly) {s : Setting} {saved : Document}
    (h : t.save s = (.ok saved, t')) : ∀ id, s.id = some id → Word.Signed id := by
  intro id hid
  rcases save_cases orderly s with herror | ⟨number, t'', hgiven, hputs, -⟩
  · rw [herror] at h
    cases h
  · have hsigned : Word.Signed number := hputs.signed
    rwa [hgiven id hid] at hsigned

/-- A save that succeeds puts the row of the setting in its place. -/
theorem save_of_ok (sound : t.Sound) {s : Setting} {saved : Document}
    (h : t.save s = (.ok saved, t')) :
    saved = ⟨t.target s, s.key, s.value⟩ ∧
      t' = { t with rows := putRow (t.savedRow s) t.rows, highest := t.raised s } := by
  have hstatement := statement?_eq sound.informed (signed_of_save sound.orderly h)
  by_cases hleft : t.Exhausted s
  · rw [save_eq_error_iff.2 (hstatement.trans (if_pos hleft))] at h
    cases h
  · rw [if_neg hleft] at hstatement
    cases hrows : t.withRows? (putRow (t.savedRow s) t.rows) (t.raised s) with
    | none =>
        rw [hrows] at hstatement
        rw [save_eq_error_iff.2 hstatement] at h
        cases h
    | some next =>
        rw [hrows] at hstatement
        rw [save_of_statement? hstatement] at h
        cases h
        exact ⟨rfl, (withRows?_eq_some_iff.1 hrows).2⟩

/-- A save fails exactly if it would breach a unique index that is reported, or if no number is
left for it. -/
theorem save_error_iff (sound : t.Sound) (written : t.Written) {s : Setting}
    (signed : ∀ id, s.id = some id → Word.Signed id) :
    (∃ e t', t.save s = (.error e, t')) ↔ t.Breaches s ∨ t.Exhausted s := by
  have herror : (∃ e t', t.save s = (.error e, t')) ↔ t.statement? s = none := by
    rw [← save_eq_error_iff]
    constructor
    · rintro ⟨e, t', h⟩
      rcases save_cases sound.orderly s with hs | ⟨id, t'', -, -, hs⟩
      · exact hs
      · rw [hs] at h
        cases h
    · exact fun h => ⟨_, _, h⟩
  rw [herror, statement?_eq sound.informed signed]
  by_cases hleft : t.Exhausted s
  · simp [hleft]
  · have hbreaches := respected_savedRow_iff sound written (s := s)
    by_cases hbreach : t.Breaches s
    · have hrows : t.withRows? (putRow (t.savedRow s) t.rows) (t.raised s) = none := by
        rw [withRows?, if_neg fun h => hbreaches.1 h hbreach]
      simp [hrows, hbreach]
    · have hrows : t.withRows? (putRow (t.savedRow s) t.rows) (t.raised s)
          = some { t with rows := putRow (t.savedRow s) t.rows, highest := t.raised s } := by
        rw [withRows?, if_pos (hbreaches.2 hbreach)]
      simp [hrows, hbreach, hleft]

/-! ## Numbers that are used up -/

/-- Only a save uses up numbers. -/
theorem highest_answer (t : Table) (request : Request) :
    (∃ s, request = .saveSetting s) ∨ (backend.answer t request).2.highest = t.highest := by
  cases request with
  | saveSetting s => exact Or.inl ⟨s, rfl⟩
  | dropIndex name =>
      apply Or.inr
      show (t.dropIndex name).2.highest = t.highest
      rcases dropIndex_cases t name with ⟨-, h⟩ | ⟨-, h⟩
      · rw [h]
      · rw [h]
        rfl
  | createIndex field unique =>
      apply Or.inr
      show (t.createIndex field unique).2.highest = t.highest
      rcases createIndex_cases t field unique with ⟨e, h⟩ | ⟨column, -, ⟨-, h⟩ | ⟨-, h⟩⟩
      · rw [h]
      · rw [h]
        rfl
      · rw [h]
        rfl
  | _ => exact Or.inr rfl

/-- The highest number is never lowered. -/
theorem highest_le_answer (orderly : t.Orderly) (request : Request) :
    t.highest ≤ (backend.answer t request).2.highest := by
  rcases highest_answer t request with ⟨s, rfl⟩ | h
  · show t.highest ≤ (t.save s).2.highest
    rcases save_cases orderly s with h | ⟨id, t', -, hputs, h⟩
    · rw [h]
    · rw [h]
      exact hputs.grows
  · rw [h]

/-- The next number is passed over by a setting without an id whose key is stored and whose value
goes into the row of the key. -/
def PassesOver (t : Table) (s : Setting) (saved : Document) (n : Int) : Prop :=
  s.id = none ∧ n = t.highest + 1 ∧ ∃ row ∈ t.rows, row.id = saved.id

/-- A successful save used up the number: its setting was stored under it, or passed over it. -/
def Uses (t : Table) (request : Request) (n : Int) : Prop :=
  ∃ s saved, request = .saveSetting s ∧ (t.save s).1 = .ok saved ∧
    (saved.id = n ∨ t.PassesOver s saved n)

/-- A number that a request uses up is not above the highest one afterwards. -/
theorem Uses.le_highest (sound : t.Sound) {request : Request} {n : Int}
    (uses : t.Uses request n) : n ≤ (backend.answer t request).2.highest := by
  obtain ⟨s, saved, rfl, hsaved, huses⟩ := uses
  show n ≤ (t.save s).2.highest
  have hsave : t.save s = (.ok saved, (t.save s).2) := Prod.ext hsaved rfl
  rcases save_cases sound.orderly s with h | ⟨id, t', -, hputs, h⟩
  · rw [h] at hsave
    cases hsave
  · have hraised := congrArg Table.highest (save_of_ok sound hsave).2
    rw [h] at hsaved hraised ⊢
    cases hsaved
    rcases huses with rfl | ⟨hid, rfl, -⟩
    · exact hputs.used
    · rw [hraised, raised_of_none hid]

/-- Where a request raises the highest number, it uses up the one that is the highest then. -/
theorem uses_highest (sound : t.Sound) (request : Request)
    (h : (backend.answer t request).2.highest ≠ t.highest) :
    t.Uses request (backend.answer t request).2.highest := by
  obtain ⟨s, rfl⟩ := (highest_answer t request).resolve_right h
  have h : (t.save s).2.highest ≠ t.highest := h
  show t.Uses (.saveSetting s) (t.save s).2.highest
  rcases save_cases sound.orderly s with herror | ⟨id, t', -, -, hok⟩
  · exact absurd (by rw [herror]) h
  · obtain ⟨hsaved, hnext⟩ := save_of_ok sound hok
    have hid : id = t.target s := congrArg Document.id hsaved
    have hraised : (t.save s).2.highest = t.raised s := by
      rw [hok, hnext]
    rw [hraised] at h ⊢
    refine ⟨s, _, rfl, by rw [hok], ?_⟩
    show id = t.raised s ∨ t.PassesOver s ⟨id, s.key, s.value⟩ (t.raised s)
    cases hgiven : s.id with
    | some given =>
        rw [raised_of_id hgiven] at h ⊢
        rw [target_of_id hgiven] at hid
        omega
    | none =>
        rw [raised_of_none hgiven]
        rcases target_cases t hgiven with ⟨row, -, hfound, htarget⟩ | ⟨-, htarget⟩
        · -- The row of the key keeps its number.
          have hkept : row.id = id := (hid.trans htarget).symm
          exact Or.inr ⟨hgiven, rfl, row, List.mem_of_find?_eq_some hfound, hkept⟩
        · exact Or.inl (hid.trans htarget)

/-- One of the requests, made one after the other on the table without contents, used up the
number. -/
def Spent (requests : List Request) (n : Int) : Prop :=
  ∃ before request, before ++ [request] <+: requests ∧
    (backend.after before empty).Uses request n

theorem sound_after (requests : List Request) : (backend.after requests empty).Sound := by
  have hempty : Store.table.Reachable empty := .empty
  exact (hempty.after requests).sound

/-- Of two runs, one of which begins with the other, the longer one has the higher number. -/
theorem highest_mono {before requests : List Request} (h : before <+: requests) :
    (backend.after before empty).highest ≤ (backend.after requests empty).highest :=
  Backend.after_le_after orderly_answer highest_le_answer sound_empty.orderly h

/-- The highest number of a run has been used up, unless it is still zero. -/
theorem spent_highest (requests : List Request)
    (h : (backend.after requests empty).highest ≠ 0) :
    Spent requests (backend.after requests empty).highest := by
  induction requests using List.reverseRecOn with
  | nil => exact absurd rfl h
  | append_singleton before request ih =>
      rw [Backend.after_concat] at h ⊢
      by_cases hsame : (backend.answer (backend.after before empty) request).2.highest
          = (backend.after before empty).highest
      · rw [hsame] at h ⊢
        obtain ⟨before', request', hprefix, huses⟩ := ih h
        exact ⟨before', request', hprefix.trans (List.prefix_append _ _), huses⟩
      · exact ⟨before, request, List.prefix_rfl, uses_highest (sound_after before) request hsame⟩

/-- No number above the greatest one is left exactly if that one has been used up. -/
theorem spent_maxSigned_iff (requests : List Request) :
    Spent requests Word.maxSigned ↔
      Word.maxSigned ≤ (backend.after requests empty).highest := by
  constructor
  · rintro ⟨before, request, hprefix, huses⟩
    have hlast := huses.le_highest (sound_after before)
    rw [← Backend.after_concat] at hlast
    exact Int.le_trans hlast (highest_mono hprefix)
  · intro hfull
    have hhighest : (backend.after requests empty).highest = Word.maxSigned :=
      Int.le_antisymm (sound_after requests).highest.2 hfull
    rw [← hhighest]
    apply spent_highest
    rw [hhighest]
    decide

/-! ## Saves in a run -/

/-- What a save after some requests has done when it answers a document. -/
structure Stored (requests : List Request) (s : Setting) (saved : Document) (t' : Table) :
    Prop where
  key : saved.key = s.key
  value : saved.value = s.value
  rows : ∀ row, row ∈ t'.rows ↔ row = ⟨saved.id, s.key, some s.value.text⟩ ∨
    (row ∈ (backend.after requests empty).rows ∧ row.id ≠ saved.id)
  sorted : t'.rows.Pairwise fun a b => a.id < b.id
  indexes : t'.indexes = (backend.after requests empty).indexes
  entities : t'.entities = (backend.after requests empty).entities
  given : ∀ id, s.id = some id → saved.id = id
  found : s.id = none → (backend.after requests empty).ReportsUniqueKey →
    ∀ row ∈ (backend.after requests empty).rows, row.key = s.key → saved.id = row.id
  new : s.id = none → ((backend.after requests empty).ReportsUniqueKey →
      ∀ row ∈ (backend.after requests empty).rows, row.key ≠ s.key) →
    ∀ before, before <+: requests → ∀ row ∈ (backend.after before empty).rows, row.id < saved.id

theorem stored_of_ok (requests : List Request) {s : Setting} {saved : Document}
    (h : (backend.after requests empty).save s = (.ok saved, t')) :
    Stored requests s saved t' := by
  have hsound := sound_after requests
  obtain ⟨rfl, rfl⟩ := save_of_ok hsound h
  refine ⟨rfl, rfl, fun row => mem_putRow hsound.sorted, putRow_pairwise _ hsound.sorted, rfl, rfl,
    ?_, ?_, ?_⟩
  · exact fun id hid => target_of_id hid
  · intro hid hunique row hrow hkey
    exact ((replaced_iff hsound.orderly hrow).1 (Or.inr ⟨hid, hunique, hkey⟩)).symm
  · intro hid hnew before hprefix row hrow
    show row.id < (backend.after requests empty).target s
    have hbound := (sound_after before).bounded row hrow
    have hmono := highest_mono hprefix
    rcases target_cases _ hid with ⟨first, hunique, hfound, -⟩ | ⟨-, htarget⟩
    · have hkey : first.key = s.key := by simpa using List.find?_some hfound
      exact absurd hkey (hnew (reportsUniqueKey_iff.2 hunique) first
        (List.mem_of_find?_eq_some hfound))
    · omega

/-- After any requests the table knows whether a unique index on the key alone is reported. A
setting is not saved exactly if another row holds what it would hold in a column on which a
unique index is reported, or if it has no id and the greatest number has been used up; then
nothing changes. Otherwise its row is put in its place, under the id of the setting, under that
of the row with its key if the key is reported to be unique, or under an id above all that any
row has had. -/
theorem save_after (requests : List Request) {s : Setting}
    (signed : ∀ id, s.id = some id → Word.Signed id) :
    ((backend.after requests empty).keyUnique = true ↔
      (backend.after requests empty).ReportsUniqueKey) ∧
    ((∃ e t', backend.answer (backend.after requests empty) (.saveSetting s) = (.error e, t')) ↔
      (backend.after requests empty).Breaches s ∨
        (s.id = none ∧ Spent requests Word.maxSigned)) ∧
    (∀ e t', backend.answer (backend.after requests empty) (.saveSetting s) = (.error e, t') →
      t' = backend.after requests empty) ∧
    ∀ saved t', backend.answer (backend.after requests empty) (.saveSetting s) = (.ok saved, t') →
      Stored requests s saved t' := by
  have hsound := sound_after requests
  have hwritten : (backend.after requests empty).Written :=
    written_after sound_empty.orderly (fun row hrow => absurd hrow List.not_mem_nil) requests
  refine ⟨?_, ?_, fun e t' h => ?_, fun saved t' h => ?_⟩
  · rw [reportsUniqueKey_iff, hsound.informed]
  · rw [spent_maxSigned_iff]
    exact save_error_iff hsound hwritten signed
  · exact eq_of_answer_error hsound.orderly h
  · exact stored_of_ok requests h

/-- Where keys and values have to be different, a row gets another key and another value, and is
not given the value of the other row. -/
theorem save_after_of_twoApart :
    (∀ id, (⟨some 2, "c", .bool false⟩ : Setting).id = some id → Word.Signed id) ∧
    (∃ saved t', backend.answer (backend.after twoApart empty)
        (.saveSetting ⟨some 2, "c", .bool false⟩) = (.ok saved, t') ∧
      Stored twoApart ⟨some 2, "c", .bool false⟩ saved t') ∧
    ((backend.after twoApart empty).Breaches ⟨some 2, "c", .bool true⟩ ∨
      ((⟨some 2, "c", .bool true⟩ : Setting).id = none ∧ Spent twoApart Word.maxSigned)) := by
  have hsigned : ∀ {v : Json} id, (⟨some 2, "c", v⟩ : Setting).id = some id → Word.Signed id := by
    intro v id hid
    obtain rfl : 2 = id := Option.some.inj hid
    decide
  have hsaves : ∃ saved t', backend.answer (backend.after twoApart empty)
      (.saveSetting ⟨some 2, "c", .bool false⟩) = (.ok saved, t') := ⟨_, _, rfl⟩
  obtain ⟨saved, t', hok⟩ := hsaves
  obtain ⟨-, -, -, hstored⟩ := save_after twoApart hsigned (s := ⟨some 2, "c", .bool false⟩)
  obtain ⟨-, hfails, -⟩ := save_after twoApart hsigned (s := ⟨some 2, "c", .bool true⟩)
  exact ⟨hsigned, ⟨saved, t', hok, hstored saved t' hok⟩, hfails.1 ⟨_, _, rfl⟩⟩

/-- A key is stored under the number before the greatest one, and its value is replaced where
keys are unique. -/
def replacedAtTheEnd : List Request :=
  [.saveSetting ⟨some (Word.maxSigned - 1), "a", .null⟩, .createIndex "key" true,
    .saveSetting ⟨none, "a", .bool true⟩]

/-- No other key can be saved then, although no index would be breached and no row ever had the
greatest number. -/
theorem greatest_number_passed_over :
    backend.answer (backend.after replacedAtTheEnd empty) (.saveSetting ⟨none, "b", .null⟩)
      = (.error .database, backend.after replacedAtTheEnd empty) ∧
    ¬ (backend.after replacedAtTheEnd empty).Breaches ⟨none, "b", .null⟩ ∧
    ∀ before, before <+: replacedAtTheEnd → ∀ row ∈ (backend.after before empty).rows,
      row.id ≠ Word.maxSigned := by
  refine ⟨rfl, ?_, ?_⟩
  · rintro ⟨index, hindex, field, column, hunique, hfield, row, hrow, -, hsame⟩
    obtain rfl : index = ⟨"idx_settings_key_unique", ["key"], true⟩ := List.mem_singleton.1 hindex
    obtain rfl : row = ⟨Word.maxSigned - 1, "a", some "true"⟩ := List.mem_singleton.1 hrow
    obtain rfl : "key" = field := List.singleton_inj.1 (Index.isUniqueOn_iff.1 hunique).2
    obtain rfl : Column.key = column := Option.some.inj hfield
    exact absurd hsame (by decide)
  · intro before hprefix
    rw [← List.mem_inits] at hprefix
    revert before
    decide

end SettingStore.Table
