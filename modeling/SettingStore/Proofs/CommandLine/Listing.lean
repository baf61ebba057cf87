import SettingStore.Proofs.CommandLine.Runs
import SettingStore.Proofs.Service.Steady

set_option autoImplicit false

/-! # The listing of a run

A run that lists the settings prints one line for each of them, with the key and, behind a tab,
the text of the value. Neither part can break a line or hide the tab: the keys that runs store are
those of the core settings, and the text of a value has no control characters, whatever its strings
contain. So the lines can be taken apart again, and the texts denote the stored values
(`list_reads_back`).
-/

namespace SettingStore

open Session
open Document (KeysDistinct find?)

/-! ## What runs leave in a table -/

/-- A row as runs write it: under a core key, with the text of a value that can be stored. -/
structure Row.Legible (row : Row) : Prop where
  core : ∃ key : CoreKey, row.key = key.name
  text : ∃ v : Json, v.Storable ∧ row.text = some v.text

/-- The value of such a row can be stored, and the row has a text that denotes it. -/
theorem Row.Legible.value {row : Row} (legible : row.Legible) :
    row.document.value.Storable ∧ row.text.bind Json.ofText? = some row.document.value := by
  obtain ⟨v, hstorable, htext⟩ := legible.text
  have hread : row.text.bind Json.ofText? = some v := by
    rw [htext, Option.bind_some, hstorable.read]
  have hvalue : row.document.value = v := by rw [Row.document, hread, Option.getD_some]
  rw [hvalue]
  exact ⟨hstorable, hread⟩

namespace Table

variable {t : Table}

/-- A request that takes away leaves no row that was not there. -/
theorem rows_takesAway {request : Request} (h : request.TakesAway) :
    (backend.answer t request).2.rows ⊆ t.rows := by
  cases request with
  | saveSetting s => exact h.elim
  | createEntity entity => exact h.elim
  | removeSetting id => exact List.filter_subset_self _
  | dropIndex name =>
      show (t.dropIndex name).2.rows ⊆ t.rows
      rcases dropIndex_cases t name with ⟨-, hdrop⟩ | ⟨-, hdrop⟩ <;> rw [hdrop] <;>
        exact List.Subset.refl _
  | createIndex field unique =>
      show (t.createIndex field unique).2.rows ⊆ t.rows
      rcases createIndex_cases t field unique with
        ⟨e, hcreate⟩ | ⟨column, -, ⟨-, hcreate⟩ | ⟨-, hcreate⟩⟩ <;> rw [hcreate] <;>
        exact List.Subset.refl _
  | _ => exact List.Subset.refl _

/-- All rows are as runs write them. -/
def Legible (t : Table) : Prop := ∀ row ∈ t.rows, row.Legible

theorem legible_answer (legible : t.Legible) (request : Request) (h : request.TakesAway) :
    (backend.answer t request).2.Legible :=
  fun row hrow => legible row (rows_takesAway h hrow)

/-- A session that only takes away leaves rows as runs write them. -/
theorem legible_takesAway {α : Type} {s : Session α} (h : s.Asks Request.TakesAway)
    (legible : t.Legible) : (s.run backend Faults.none t).2.Legible := by
  have hends : Ends backend (fun _ (t' : Table) => t'.Legible) s t := h.ends legible_answer legible
  exact hends Faults.none

end Table

namespace CommandLine

variable {t : Table}

/-- What `set` adds, if it adds something, is a row as runs write it. -/
theorem legible_set {registry : FrozenRegistry} {c : Configuration}
    (hregistry : c.registry = .ok registry) (orderly : t.Orderly) {key : String} {v : Json}
    (storable : v.Storable) (legible : t.Legible) :
    (((⟨registry⟩ : Service).set key v).run Table.backend Faults.none t).2.Legible := by
  have hends : Ends Store.table.backend (fun _ (t' : Table) => t'.Legible)
      ((⟨registry⟩ : Service).set key v) t := by
    refine Service.ends_set_of_accepted _ key v (fun _ => legible) fun w accepted => ?_
    obtain ⟨hcore, hstorable⟩ := core_of_accepts hregistry accepted
    show (t.save ⟨(find? key t.documents).map (·.id), key, w⟩).2.Legible
    rcases Table.save_cases orderly ⟨(find? key t.documents).map (·.id), key, w⟩ with
      hsave | ⟨id, t', -, hputs, hsave⟩
    · rw [hsave]
      exact legible
    · rw [hsave, hputs.others]
      intro row hrow
      rcases (Table.mem_putRow orderly.sorted).1 hrow with rfl | ⟨hrow, -⟩
      · exact ⟨hcore, w, hstorable storable, rfl⟩
      · exact legible row hrow
  exact hends Faults.none

/-! ## The invariant of runs -/

/-- What holds of the table between runs. -/
structure Kept (t : Table) : Prop where
  sound : t.Sound
  keys : KeysDistinct t.documents
  legible : t.Legible

theorem kept_empty : Kept Table.empty :=
  ⟨Table.sound_empty, List.nodup_nil, fun _ h => absurd h List.not_mem_nil⟩

/-- The binary64 numbers in the value that is set, if one is, read back from their texts. -/
def Command.Exact : Command → Prop
  | .set _ text => (Json.ofTextOrString text).FloatsReadBack
  | _ => True

/-- The call that a command makes, if it makes one. -/
def Command.call : Command → Option Call
  | .repair => none
  | .get key => some (.get key)
  | .set key text => some (.set key (.ofTextOrString text))
  | .unset key => some (.unset key)
  | .list start => some (.list start)

/-- A command leaves the table as its call does. -/
theorem after_session (command : Command) (service : Service) :
    ((command.session service).run Table.backend Faults.none t).2 =
      match command.call with
      | none => t
      | some call => ((call.session service).run Table.backend Faults.none t).2 := by
  cases command with
  | repair => rfl
  | _ =>
      rw [Command.session, run_bind_pure]
      rfl

/-- A call keeps what holds between runs, on a table with a unique index. -/
theorem kept_call {registry : FrozenRegistry} {c : Configuration}
    (hregistry : c.registry = .ok registry) (guarded : Service.Guarded .table t) (sound : t.Sound)
    (legible : t.Legible) (call : Call) (storable : ∀ key v, call = .set key v → v.Storable) :
    Kept ((call.session ⟨registry⟩).run Table.backend Faults.none t).2 := by
  have hsound := ends_of_kept Table.sound_answer (call.session ⟨registry⟩) sound Faults.none
  have hguarded := Service.Steady.ends (@Service.steady_call .table t ⟨registry⟩ call) guarded
    Faults.none
  refine ⟨hsound, hguarded.keys, ?_⟩
  -- Only `set` adds a row; all other calls take rows away at most.
  by_cases hset : ∃ key v, call = .set key v
  · obtain ⟨key, v, rfl⟩ := hset
    exact legible_set hregistry sound.orderly (storable key v rfl) legible
  · have hother : ∀ key v, call ≠ .set key v := fun key v heq => hset ⟨key, v, heq⟩
    exact Table.legible_takesAway (Call.takesAway ⟨registry⟩ hother) legible

/-- So does a run. -/
theorem kept_run (kept : Kept t) {c : Configuration} (floats : c.command.Exact) :
    Kept (c.run t).2 := by
  rw [run_eq kept.sound]
  cases hregistry : c.registry with
  | error e => exact kept
  | ok registry =>
      dsimp only
      have hsound := sound_repaired kept.sound
      have hends := (repairEnds_repaired kept.sound).established rfl
      have hlegible : (repaired t).Legible :=
        Table.legible_takesAway Service.reconnect_takesAway kept.legible
      rw [after_session]
      cases hcall : c.command.call with
      | none => exact ⟨hsound, hends.2, hlegible⟩
      | some call =>
          refine kept_call hregistry ⟨hsound.orderly, hends.1, hends.2⟩ hsound hlegible call ?_
          rintro key v rfl
          -- Only one command makes such a call.
          cases hcommand : c.command with
          | set other text =>
              rw [hcommand] at hcall floats
              cases hcall
              exact storable_ofTextOrString floats
          | _ =>
              rw [hcommand] at hcall
              cases hcall

theorem kept_after (kept : Kept t) {runs : List Configuration}
    (floats : ∀ c ∈ runs, c.command.Exact) : Kept (after runs t) := by
  induction runs generalizing t with
  | nil => exact kept
  | cons c rest ih =>
      obtain ⟨hfirst, hrest⟩ := List.forall_mem_cons.1 floats
      exact ih (kept_run kept hfirst) hrest

/-! ## What is printed -/

/-- The line for a document, without the line feed. -/
def lineChars (d : Document) : List Char := d.key.toList ++ '\t' :: d.value.text.toList

/-- The line shows the document: before the first tab is the key, and behind it a text that
denotes the value. -/
def Shows (line : List Char) (d : Document) : Prop :=
  line.takeWhile (· != '\t') = d.key.toList ∧
    ∃ text : String, line.dropWhile (· != '\t') = '\t' :: text.toList ∧
      Json.ofText? text = some d.value

/-- Lines that end with a line feed are found again by splitting there. Behind the last one there is
nothing. -/
theorem splitOn_lines {lines : List (List Char)} (plain : ∀ l ∈ lines, '\n' ∉ l) :
    (lines.flatMap (· ++ ['\n'])).splitOn '\n' = lines ++ [[]] := by
  rw [List.splitOn_eq_splitOnP]
  induction lines with
  | nil => rfl
  | cons l rest ih =>
      obtain ⟨hl, hrest⟩ := List.forall_mem_cons.1 plain
      have hone : l.splitOnP (· == '\n') = [l] :=
        List.splitOnP_eq_singleton fun c hc => beq_eq_false_iff_ne.2 fun heq => hl (heq ▸ hc)
      rw [List.flatMap_cons, List.append_assoc, List.singleton_append,
        List.splitOnP_append_cons (p := (· == '\n')) l _ rfl, hone, ih hrest,
        List.singleton_append, List.cons_append]

/-- The keys of the core settings have neither tabs nor line feeds. -/
theorem plain_coreName (core : CoreKey) : '\t' ∉ core.name.toList ∧ '\n' ∉ core.name.toList := by
  cases core <;> decide

section Documents

variable {d : Document}

/-- The line of a document has no line feed. -/
theorem plain_lineChars (core : ∃ key : CoreKey, d.key = key.name) (storable : d.value.Storable) :
    '\n' ∉ lineChars d := by
  obtain ⟨key, hkey⟩ := core
  have hvisible := Json.visible_text storable.canonical storable.floats
  intro hmem
  rcases List.mem_append.1 hmem with h | h
  · rw [hkey] at h
    exact (plain_coreName key).2 h
  · rcases List.mem_cons.1 h with h | h
    · exact absurd h (by decide)
    · exact absurd (hvisible '\n' h) (by decide)

/-- The line of a document shows it. -/
theorem shows_lineChars (core : ∃ key : CoreKey, d.key = key.name) (storable : d.value.Storable) :
    Shows (lineChars d) d := by
  obtain ⟨key, hkey⟩ := core
  have hplain : ∀ c ∈ d.key.toList, (c != '\t') = true := by
    intro c hc
    rw [bne_iff_ne]
    rintro rfl
    rw [hkey] at hc
    exact (plain_coreName key).1 hc
  refine ⟨?_, d.value.text, ?_, storable.read⟩
  · rw [lineChars, List.takeWhile_append_of_pos hplain, List.takeWhile_cons_of_neg (by simp),
      List.append_nil]
  · rw [lineChars, List.dropWhile_append_of_pos hplain, List.dropWhile_cons_of_neg (by simp)]

end Documents

/-- A listing prints the line of each document that it lists, and a line feed behind it. -/
theorem run_list (sound : t.Sound) {c : Configuration} (valid : c.Valid) {start : Option String}
    (hc : c.command = .list start) :
    ∃ output, (c.run t).1 = .ok output ∧ output.toList =
      ((Document.list ⟨none, start⟩ (repaired t).documents).map lineChars).flatMap (· ++ ['\n']) := by
  obtain ⟨registry, hregistry⟩ := valid.registry
  have hlist : (Service.list start).run Table.backend Faults.none (repaired t)
      = (.ok (Document.list ⟨none, start⟩ (repaired t).documents), repaired t) :=
    @Service.run_none_list .table (repaired t) start
  rw [run_eq sound, hregistry, hc]
  dsimp only
  rw [Command.session, run_bind_pure, hlist]
  refine ⟨_, rfl, ?_⟩
  rw [String.toList_join, List.flatMap_map, List.flatMap_map]
  refine List.flatMap_congr fun d _ => ?_
  simp [line, lineChars]

/-- A repair neither adds nor removes a document where no key is stored twice. -/
theorem mem_repaired (sound : t.Sound) (keys : KeysDistinct t.documents) {d : Document} :
    d ∈ (repaired t).documents ↔ d ∈ t.documents := by
  rw [← Contents.of_key_eq_some_iff (sound_repaired sound).ids (keysDistinct_repaired sound),
    ← Contents.of_key_eq_some_iff sound.ids keys, Contents.of, Contents.of, find?_repaired sound]

/-- The listing of a run can be read back. Whatever runs were made on one directory, which is empty
at first, if the binary64 numbers in the values that they set read back: a run that lists the
settings prints lines, and each of them ends with a line feed. There is one line for each stored
setting whose key starts with the given text, in the order of the bytes of the keys. Each shows the
key before its first tab and behind it a text that denotes the value; and what is stored is a text
that denotes it, too. -/
theorem list_reads_back (before : List Configuration) (floats : ∀ c ∈ before, c.command.Exact)
    {list : Configuration} (valid : list.Valid) {start : Option String}
    (hlist : list.command = .list start) :
    ∃ (output : String) (lines : List (List Char)) (docs : List Document),
      (list.run (after before Table.empty)).1 = .ok output ∧
      output.toList.splitOn '\n' = lines ++ [[]] ∧
      List.Forall₂ Shows lines docs ∧
      docs.Pairwise (fun d e => Text.bytes d.key < Text.bytes e.key) ∧
      (∀ d, d ∈ docs ↔ d ∈ (after before Table.empty).documents ∧
        ∀ text, start = some text → text.toList <+: d.key.toList) ∧
      ∀ row ∈ (after before Table.empty).rows,
        row.text.bind Json.ofText? = some row.document.value := by
  have kept := kept_after kept_empty floats
  generalize after before Table.empty = t at kept
  obtain ⟨output, hrun, houtput⟩ := run_list kept.sound valid hlist
  have hmem : ∀ d, d ∈ Document.list ⟨none, start⟩ (repaired t).documents ↔
      d ∈ t.documents ∧ ∀ text, start = some text → text.toList <+: d.key.toList := by
    intro d
    rw [Document.mem_list, Document.admits_iff, mem_repaired kept.sound kept.keys]
    simp
  -- Every listed document stands in a row as runs write it.
  have hlegible : ∀ d ∈ Document.list ⟨none, start⟩ (repaired t).documents,
      (∃ key : CoreKey, d.key = key.name) ∧ d.value.Storable := by
    intro d hd
    obtain ⟨row, hrow, rfl⟩ := List.mem_map.1 ((hmem d).1 hd).1
    exact ⟨(kept.legible row hrow).core, (kept.legible row hrow).value.1⟩
  refine ⟨output, (Document.list ⟨none, start⟩ (repaired t).documents).map lineChars, _, hrun,
    ?_, ?_, ?_, hmem, fun row hrow => (kept.legible row hrow).value.2⟩
  · rw [houtput]
    refine splitOn_lines fun l hl => ?_
    obtain ⟨d, hd, rfl⟩ := List.mem_map.1 hl
    exact plain_lineChars (hlegible d hd).1 (hlegible d hd).2
  · rw [List.forall₂_map_left_iff, List.forall₂_same]
    exact fun d hd => shows_lineChars (hlegible d hd).1 (hlegible d hd).2
  · exact (Document.list_keys_increase _ (keysDistinct_repaired kept.sound)).imp
      Text.bytes_lt_iff.2

/-- A list, and then a password with a tab and a line feed in it. -/
def listAndPassword : List Configuration :=
  [sampleRun (.set "core.smtp.username" "[ 1 ]"), sampleRun (.set Service.passwordKey "a\tb\nc")]

/-- The password comes first, on one line, and both values are found again. -/
theorem list_reads_back_of_password :
    ((sampleRun (.list (some "core."))).run (after listAndPassword Table.empty)).1
      = .ok "core.smtp.password\t\"a\\tb\\nc\"\ncore.smtp.username\t[1]\n" ∧
    ∃ docs, List.Forall₂ Shows
        ["core.smtp.password\t\"a\\tb\\nc\"".toList, "core.smtp.username\t[1]".toList] docs ∧
      ∀ d ∈ docs, d ∈ (after listAndPassword Table.empty).documents := by
  have hprints : ((sampleRun (.list (some "core."))).run (after listAndPassword Table.empty)).1
      = .ok "core.smtp.password\t\"a\\tb\\nc\"\ncore.smtp.username\t[1]\n" := by
    decide +kernel
  have hexact : ∀ c ∈ listAndPassword, c.command.Exact := by
    have hlist : Json.ofTextOrString "[ 1 ]" = .array [Json.ofInt 1] := by decide +kernel
    have hpassword : Json.ofTextOrString "a\tb\nc" = .string "a\tb\nc" := by decide +kernel
    refine List.forall_mem_cons.2 ⟨?_, List.forall_mem_singleton.2 ?_⟩
    · show (Json.ofTextOrString "[ 1 ]").FloatsReadBack
      rw [hlist]
      intro x hx
      simp [Json.numbers, Json.itemNumbers, Json.ofInt] at hx
    · show (Json.ofTextOrString "a\tb\nc").FloatsReadBack
      rw [hpassword]
      exact (Json.storable_string _).floats
  obtain ⟨output, lines, docs, hrun, hsplit, hshows, -, hmem, -⟩ := list_reads_back listAndPassword
    hexact (valid_sampleRun (.list (some "core."))) rfl
  obtain rfl := Except.ok.inj (hprints.symm.trans hrun)
  have hlines : ["core.smtp.password\t\"a\\tb\\nc\"".toList, "core.smtp.username\t[1]".toList]
      = lines := List.append_cancel_right (Eq.trans (by decide +kernel) hsplit)
  rw [hlines]
  exact ⟨hprints, docs, hshows, fun d hd => ((hmem d).1 hd).1⟩

end CommandLine

end SettingStore
