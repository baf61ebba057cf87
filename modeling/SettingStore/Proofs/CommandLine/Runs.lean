import SettingStore.CommandLine.Run
import SettingStore.Proofs.Json.Reading
import SettingStore.Proofs.Service.Contents
import SettingStore.Proofs.Service.Durable
import SettingStore.Proofs.Service.StoredValues
import SettingStore.Proofs.Store.Snapshot

set_option autoImplicit false

/-! # Runs of the program

The program is run again and again over one table. Every run opens the table and repairs it
before it carries out its command, so that it sees the table only through the repaired one
(`run_eq`). Between two runs the table is in a file, and no run tells it from the one that was
written (`ofSnapshot?_after`). What a run has set is what a later run gets, up to the next run
that sets or unsets the key, and a run that fails to set something might as well not have been
made (`runs_agree`).
-/

namespace SettingStore

open Session
open Document (KeysDistinct find?)

namespace CommandLine

/-! ## The registry of a run -/

/-- The public address of a configuration, if there is one, is that of an origin. -/
def Configuration.Valid (c : Configuration) : Prop :=
  ∀ url, c.publicUrl = some url → ∃ origin, Origin.ofText url = .ok origin

/-- The core settings can be registered whatever the deployment. -/
theorem registerCore_empty (deployment : Deployment) :
    (Registry.empty.registerCore deployment).1 = .ok () := rfl

/-- A registry is that of a deployment. -/
theorem registry_eq_ok {c : Configuration} {registry : FrozenRegistry}
    (h : c.registry = .ok registry) :
    ∃ deployment, registry = (Registry.empty.registerCore deployment).2.freeze := by
  rw [Configuration.registry] at h
  cases hdeployment : c.deployment with
  | error e =>
      rw [hdeployment] at h
      cases h
  | ok deployment =>
      rw [hdeployment] at h
      exact ⟨deployment, (Except.ok.inj h).symm⟩

/-- Only an invalid public address keeps a run from its registry. -/
theorem Configuration.Valid.registry {c : Configuration} (valid : c.Valid) :
    ∃ registry, c.registry = .ok registry := by
  have hdeployment : ∃ deployment, c.deployment = .ok deployment := by
    rw [Configuration.deployment]
    cases hurl : c.publicUrl with
    | none => exact ⟨_, rfl⟩
    | some url =>
        obtain ⟨origin, horigin⟩ := valid url hurl
        dsimp only
        rw [horigin]
        exact ⟨_, rfl⟩
  obtain ⟨deployment, hdeployment⟩ := hdeployment
  rw [Configuration.registry, hdeployment]
  exact ⟨_, rfl⟩

/-- Only core keys have handlers in a run. -/
theorem core_of_handler? {deployment : Deployment} {key : String}
    (h : (((Registry.empty.registerCore deployment).2.freeze).handler? key).isSome = true) :
    ∃ core : CoreKey, key = core.name := by
  obtain ⟨handler, hhandler⟩ := Option.isSome_iff_exists.1 h
  rcases Registry.cases_of_registerKeys deployment CoreKey.all Registry.empty hhandler with
    ⟨core, -, hname⟩ | hempty
  · exact ⟨core, hname⟩
  · cases hempty

/-- What a run accepts is for a core key, and it can be stored if the given value can. -/
theorem core_of_accepts {registry : FrozenRegistry} {c : Configuration}
    (hregistry : c.registry = .ok registry) {t : Table} {s : Setting} {w : Json}
    (accepted : (⟨registry⟩ : Service).Accepts .table t s w) :
    (∃ core : CoreKey, s.key = core.name) ∧ (s.value.Storable → w.Storable) := by
  obtain ⟨deployment, rfl⟩ := registry_eq_ok hregistry
  obtain ⟨core, hcore⟩ := core_of_handler? accepted.known
  have hsettled := accepted.settled
    (Registry.handler?_of_registerCore (registerCore_empty deployment) core) hcore
  exact ⟨⟨core, hcore⟩, hsettled.2⟩

/-! ## The repaired table -/

/-- The table as a run repairs it before it carries out its command. -/
def repaired (t : Table) : Table :=
  (Service.reconnect.run Table.backend Faults.none t).2

variable {t : Table}

theorem run_reconnect (sound : t.Sound) :
    Service.reconnect.run Table.backend Faults.none t = (.ok (), repaired t) :=
  Prod.ext (@Service.run_none_reconnect .table t sound) rfl

/-- A repair establishes the unique index, and with it that no key is stored twice. -/
theorem repairEnds_repaired (sound : t.Sound) :
    Service.RepairEnds .table t (.ok ()) (repaired t) := by
  have held : Service.HasUniqueIndex .table t → KeysDistinct t.documents :=
    fun h => sound.keysDistinct (Table.hasUniqueKey_iff.2 h)
  have hends := @Service.ends_reconnect .table t sound held Faults.none
  rwa [@Service.run_none_reconnect .table t sound] at hends

theorem sound_repaired (sound : t.Sound) : (repaired t).Sound := (repairEnds_repaired sound).sound

theorem keysDistinct_repaired (sound : t.Sound) : KeysDistinct (repaired t).documents :=
  ((repairEnds_repaired sound).established rfl).2

/-- There is nothing left to repair afterwards. -/
theorem repaired_repaired (sound : t.Sound) : repaired (repaired t) = repaired t := by
  have hunique := ((repairEnds_repaired sound).established rfl).1
  have hrun : Service.reconnect.run Table.backend Faults.none (repaired t) = (.ok (), repaired t) :=
    Service.run_none_reconnect_of_hasUniqueIndex hunique
  rw [repaired, hrun]

/-- A repair loses nothing that counts. -/
theorem find?_repaired (sound : t.Sound) (key : String) :
    find? key (repaired t).documents = find? key t.documents :=
  (@Service.spares_reconnect .table t sound.orderly Faults.none).found key

/-! ## One run -/

/-- A run without a registry does nothing, and any other run carries out its command on the
repaired table. -/
theorem run_eq (sound : t.Sound) (c : Configuration) :
    c.run t = match c.registry with
      | .error e => (.error e, t)
      | .ok registry =>
          (c.command.session ⟨registry⟩).run Table.backend Faults.none (repaired t) := by
  rw [Configuration.run, Configuration.session, sound.opened]
  cases c.registry with
  | error e => rfl
  | ok registry =>
      show ((Service.reconnect >>= fun _ => pure ⟨registry⟩) >>= fun service =>
        c.command.session service).run Table.backend Faults.none t = _
      rw [bind_assoc', run_none_bind, run_reconnect sound]
      rfl

theorem sound_run (sound : t.Sound) (c : Configuration) : (c.run t).2.Sound := by
  rw [Configuration.run, sound.opened]
  exact ends_of_kept Table.sound_answer c.session sound Faults.none

/-! ## Values given as texts -/

/-- A value can be stored whether its text is a JSON text or a string as it stands. -/
theorem storable_ofTextOrString {text : String}
    (floats : (Json.ofTextOrString text).FloatsReadBack) : (Json.ofTextOrString text).Storable := by
  unfold Json.ofTextOrString at floats ⊢
  cases hread : Json.ofText? text with
  | none => exact Json.storable_string text
  | some v =>
      rw [hread] at floats
      exact Json.storable_of_ofText? hread floats

/-- The text of a value that can be stored is taken for the value. -/
theorem ofTextOrString_text {v : Json} (h : v.Storable) : Json.ofTextOrString v.text = v := by
  rw [Json.ofTextOrString, h.read, Option.getD_some]

/-! ## Commands that write -/

/-- On a table that stores no key twice, `set` either fails and changes nothing, or what is found
changes for its key only. -/
theorem set_cases (sound : t.Sound) (keys : KeysDistinct t.documents) (service : Service)
    (key : String) (v : Json) :
    (∃ e, (service.set key v).run Table.backend Faults.none t = (.error e, t)) ∨
      ∃ saved t', (service.set key v).run Table.backend Faults.none t = (.ok saved, t') ∧
        service.Accepts .table t ⟨(find? key t.documents).map (·.id), key, v⟩ saved.value ∧
        ∀ other, find? other t'.documents =
          if other = key then some ⟨saved.id, key, Store.table.readBack saved.value⟩
          else find? other t.documents := by
  have hends : Ends Store.table.backend (fun outcome t' =>
      (∃ e, outcome = .error e ∧ t' = t) ∨ ∃ saved : Document, outcome = .ok saved ∧
        service.Accepts .table t ⟨(find? key t.documents).map (·.id), key, v⟩ saved.value ∧
        ∀ other, find? other (Store.table.documents t') =
          if other = key then some ⟨saved.id, key, Store.table.readBack saved.value⟩
          else find? other t.documents) (service.set key v) t := by
    refine Service.ends_set_of_accepted service key v (fun e => Or.inl ⟨e, rfl, rfl⟩)
      fun w accepted => ?_
    rcases @Store.answer_saveSetting .table t sound.orderly
        ⟨(find? key (Store.table.documents t)).map (·.id), key, w⟩ with h | ⟨saved, t', h, hsaves⟩
    · rw [h]
      exact Or.inl ⟨_, rfl, rfl⟩
    · have hsound := @Store.sound_answer .table t sound
        (.saveSetting ⟨(find? key (Store.table.documents t)).map (·.id), key, w⟩)
      have hplace := @Store.takesPlace_saveSetting .table t sound.orderly _ _ _ _ h
      rw [h] at hsound ⊢
      have hvalue : saved.value = w := hsaves.value
      refine Or.inr ⟨saved, rfl, by rwa [hvalue], ?_⟩
      rw [hvalue]
      exact (Document.find?_of_put sound.ids (Store.Sound.ids hsound) keys hsaves.documents
        fun e he => hplace.key_iff sound.ids keys he).2
  rcases hends Faults.none with ⟨e, houtcome, hstate⟩ | ⟨saved, houtcome, haccepted, hfound⟩
  · exact Or.inl ⟨e, Prod.ext houtcome hstate⟩
  · exact Or.inr ⟨saved, _, Prod.ext houtcome rfl, haccepted, hfound⟩

/-- The command sets or unsets the key. -/
def Command.Changes (key : String) : Command → Prop
  | .set other _ => other = key
  | .unset other => other = key
  | _ => False

/-- A command that does not change a key leaves what is found for it, and so does one that
fails. -/
theorem find?_session (sound : t.Sound) (keys : KeysDistinct t.documents) (service : Service)
    (command : Command) {key : String}
    (h : command.Changes key → ∀ printed,
      ((command.session service).run Table.backend Faults.none t).1 ≠ .ok printed) :
    find? key ((command.session service).run Table.backend Faults.none t).2.documents
      = find? key t.documents := by
  cases command with
  | repair => rfl
  | get other =>
      have hget : ((service.get other).run Table.backend Faults.none t).2 = t :=
        congrArg Prod.snd (@Service.run_none_get .table t service other)
      rw [Command.session, run_bind_pure, hget]
  | list start =>
      have hlist : ((Service.list start).run Table.backend Faults.none t).2 = t :=
        congrArg Prod.snd (@Service.run_none_list .table t start)
      rw [Command.session, run_bind_pure, hlist]
  | unset other =>
      obtain ⟨t', hrun, hsound, -, -, -, hmem⟩ := @Service.run_none_unset .table t sound other
      have hrun : (Service.unset other).run Table.backend Faults.none t = (.ok (), t') := hrun
      rw [Command.session, run_bind_pure, hrun] at h ⊢
      have hne : key ≠ other := fun heq => h heq.symm _ rfl
      have herase := Document.find?_of_erase sound.ids (Table.Sound.ids hsound) hmem key
      rwa [if_neg hne] at herase
  | set other text =>
      rw [Command.session, run_bind_pure] at h ⊢
      rcases set_cases sound keys service other (.ofTextOrString text) with
        ⟨e, hrun⟩ | ⟨saved, t', hrun, -, hfound⟩
      · rw [hrun]
      · rw [hrun] at h ⊢
        have hne : key ≠ other := fun heq => h heq.symm _ rfl
        rw [hfound, if_neg hne]

/-- A run that does not change a key leaves what is found for it, and so does one that fails. -/
theorem find?_run (sound : t.Sound) (c : Configuration) {key : String}
    (h : c.command.Changes key → ∀ printed, (c.run t).1 ≠ .ok printed) :
    find? key (c.run t).2.documents = find? key t.documents := by
  rw [run_eq sound] at h ⊢
  cases hregistry : c.registry with
  | error e => rfl
  | ok registry =>
      rw [hregistry] at h
      have hkept := find?_session (sound_repaired sound) (keysDistinct_repaired sound) ⟨registry⟩
        c.command h
      exact hkept.trans (find?_repaired sound key)

/-- A run that is to set something either fails and leaves nothing but a repaired table at most,
or it prints what was accepted, and that is stored. -/
theorem run_set_cases (sound : t.Sound) {c : Configuration} {key text : String}
    (hc : c.command = .set key text) :
    (∃ e, (c.run t).1 = .error e ∧ repaired (c.run t).2 = repaired t) ∨
      ∃ registry, ∃ saved : Document, c.registry = .ok registry ∧
        (c.run t).1 = .ok (line saved.value.text) ∧
        (⟨registry⟩ : Service).Accepts .table (repaired t)
          ⟨(find? key (repaired t).documents).map (·.id), key, .ofTextOrString text⟩ saved.value ∧
        find? key (c.run t).2.documents
          = some ⟨saved.id, key, Store.table.readBack saved.value⟩ := by
  rw [run_eq sound]
  cases hregistry : c.registry with
  | error e => exact Or.inl ⟨e, rfl, rfl⟩
  | ok registry =>
      dsimp only
      rw [hc, Command.session, run_bind_pure]
      rcases set_cases (sound_repaired sound) (keysDistinct_repaired sound) ⟨registry⟩ key
          (.ofTextOrString text) with ⟨e, hrun⟩ | ⟨saved, t', hrun, haccepted, hfound⟩
      · rw [hrun]
        exact Or.inl ⟨e, rfl, repaired_repaired sound⟩
      · rw [hrun]
        exact Or.inr ⟨registry, saved, rfl, rfl, haccepted, by rw [hfound, if_pos rfl]⟩

/-- What a run has set is stored, and its text is the one that was printed. -/
theorem find?_run_set (sound : t.Sound) {c : Configuration} {key text printed : String}
    (hc : c.command = .set key text) (floats : (Json.ofTextOrString text).FloatsReadBack)
    (h : (c.run t).1 = .ok printed) :
    ∃ d, find? key (c.run t).2.documents = some d ∧ printed = line d.value.text := by
  rcases run_set_cases sound hc with
    ⟨e, hfails, -⟩ | ⟨registry, saved, hregistry, hprints, haccepted, hfound⟩
  · rw [hfails] at h
    cases h
  · have hstorable := (core_of_accepts hregistry haccepted).2 (storable_ofTextOrString floats)
    rw [hprints] at h
    rw [Store.table.readBack_of_storable hstorable] at hfound
    exact ⟨_, hfound, (Except.ok.inj h).symm⟩

/-- What a run gets is the text of what is stored. -/
theorem run_get (sound : t.Sound) {c : Configuration} (valid : c.Valid) {key : String}
    (hc : c.command = .get key) {d : Document} (hd : find? key t.documents = some d) :
    (c.run t).1 = .ok (line d.value.text) := by
  obtain ⟨registry, hregistry⟩ := valid.registry
  have hget : ((⟨registry⟩ : Service).get key).run Table.backend Faults.none (repaired t)
      = (.ok ((⟨registry⟩ : Service).effective (Contents.of (repaired t).documents) key),
          repaired t) :=
    @Service.run_none_get .table (repaired t) ⟨registry⟩ key
  rw [run_eq sound, hregistry, hc]
  dsimp only
  rw [Command.session, run_bind_pure, hget, Service.effective, Contents.of,
    find?_repaired sound, hd]
  rfl

/-! ## Runs one after another -/

/-- The table after some runs. -/
def after : List Configuration → Table → Table
  | [], t => t
  | c :: rest, t => after rest (c.run t).2

/-- What some runs print, or why they fail, one after another. -/
def outcomes : List Configuration → Table → List (Except Error String)
  | [], _ => []
  | c :: rest, t => (c.run t).1 :: outcomes rest (c.run t).2

theorem sound_after (sound : t.Sound) (runs : List Configuration) : (after runs t).Sound := by
  induction runs generalizing t with
  | nil => exact sound
  | cons c rest ih => exact ih (sound_run sound c)

/-- What some runs leave in the file is read as the table after them. -/
theorem ofSnapshot?_after (sound : t.Sound) (runs : List Configuration) :
    Table.ofSnapshot? (after runs t).snapshot = some (after runs t) :=
  Table.ofSnapshot?_snapshot (sound_after sound runs)

/-- The runs neither set nor unset the key, unless they fail. -/
def Spare (key : String) : List Configuration → Table → Prop
  | [], _ => True
  | c :: rest, t =>
      (c.command.Changes key → ∀ printed, (c.run t).1 ≠ .ok printed) ∧ Spare key rest (c.run t).2

/-- Runs that spare a key leave what is found for it. -/
theorem find?_after (sound : t.Sound) {key : String} {runs : List Configuration}
    (spare : Spare key runs t) : find? key (after runs t).documents = find? key t.documents := by
  induction runs generalizing t with
  | nil => rfl
  | cons c rest ih => exact (ih (sound_run sound c) spare.2).trans (find?_run sound c spare.1)

/-- Runs cannot tell two tables apart that are repaired alike. -/
theorem outcomes_eq {t' : Table} (sound : t.Sound) (sound' : t'.Sound)
    (alike : repaired t' = repaired t) (runs : List Configuration) :
    outcomes runs t' = outcomes runs t := by
  induction runs generalizing t t' with
  | nil => rfl
  | cons c rest ih =>
      have hrun := run_eq sound c
      have hrun' := run_eq sound' c
      rw [alike] at hrun'
      cases hregistry : c.registry with
      | error e =>
          rw [hregistry] at hrun hrun'
          rw [outcomes, outcomes, hrun, hrun']
          exact congrArg _ (ih sound sound' alike)
      | ok registry =>
          rw [hregistry] at hrun hrun'
          rw [outcomes, outcomes, hrun, hrun']

/-- A run that fails to set something changes nothing in what later runs print. -/
theorem outcomes_after_failed_set (sound : t.Sound) {c : Configuration} {key text : String}
    {e : Error} (hc : c.command = .set key text) (h : (c.run t).1 = .error e)
    (later : List Configuration) : outcomes later (c.run t).2 = outcomes later t := by
  rcases run_set_cases sound hc with ⟨e', -, halike⟩ | ⟨registry, saved, -, hprints, -⟩
  · exact outcomes_eq sound (sound_run sound c) halike later
  · rw [hprints] at h
    cases h

/-- Runs of the program on one directory, which is empty at first. What a run sets and prints is
what a later run gets, if no run in between sets or unsets the key and succeeds; whether a run
that fails to set something is made or not, later runs print the same; and a value whose
containers stand no deeper than reading allows is what its text is taken for. The binary64
numbers in the given values have to read back. -/
theorem runs_agree :
    (∀ (before between : List Configuration) (set get : Configuration) (key text printed : String),
      set.command = .set key text → (Json.ofTextOrString text).FloatsReadBack →
      (set.run (after before Table.empty)).1 = .ok printed →
      Spare key between (set.run (after before Table.empty)).2 →
      get.command = .get key → get.Valid →
      (get.run (after between (set.run (after before Table.empty)).2)).1 = .ok printed) ∧
    (∀ (before later : List Configuration) (set : Configuration) (key text : String) (e : Error),
      set.command = .set key text → (set.run (after before Table.empty)).1 = .error e →
      outcomes later (set.run (after before Table.empty)).2
        = outcomes later (after before Table.empty)) ∧
    ∀ v : Json, v.Canonical → v.FloatsReadBack → v.depth ≤ 127 →
      Json.ofTextOrString v.text = v := by
  refine ⟨?_, ?_, ?_⟩
  · intro before between set get key text printed hset floats hprinted spare hget valid
    have hbefore := sound_after Table.sound_empty before
    have hrun := sound_run hbefore set
    obtain ⟨d, hd, rfl⟩ := find?_run_set hbefore hset floats hprinted
    rw [← find?_after hrun spare] at hd
    exact run_get (sound_after hrun between) valid hget hd
  · intro before later set key text e hset hfails
    exact outcomes_after_failed_set (sound_after Table.sound_empty before) hset hfails later
  · intro v canonical floats shallow
    exact ofTextOrString_text ⟨canonical, floats, shallow⟩

/-- A run with a public address. -/
def sampleRun (command : Command) : Configuration :=
  ⟨"data", some "https://a.example", [], command⟩

theorem valid_sampleRun (command : Command) : (sampleRun command).Valid := by
  intro url hurl
  obtain rfl : "https://a.example" = url := Option.some.inj hurl
  exact ⟨⟨"https", "a.example", 443⟩, by decide +kernel⟩

/-- A value is set, a key that is not known cannot be set, and the value is got. -/
theorem runs_agree_of_password :
    ((sampleRun (.set Service.passwordKey "[1, true]")).run Table.empty).1 = .ok "[1,true]\n" ∧
    ((sampleRun (.get Service.passwordKey)).run
      (after [sampleRun (.set "a" "1")]
        ((sampleRun (.set Service.passwordKey "[1, true]")).run Table.empty).2)).1
      = .ok "[1,true]\n" ∧
    outcomes [sampleRun (.list none)] ((sampleRun (.set "a" "1")).run Table.empty).2
      = outcomes [sampleRun (.list none)] Table.empty ∧
    Json.ofTextOrString (Service.nested 127).text = Service.nested 127 := by
  have hprints : ((sampleRun (.set Service.passwordKey "[1, true]")).run Table.empty).1
      = .ok "[1,true]\n" := by decide +kernel
  have hfails : ((sampleRun (.set "a" "1")).run Table.empty).1
      = .error (CoreKey.unknown "a") := by decide +kernel
  have hread : Json.ofTextOrString "[1, true]" = .array [Json.ofInt 1, .bool true] := by
    decide +kernel
  have hfloats : (Json.ofTextOrString "[1, true]").FloatsReadBack := by
    rw [hread]
    intro x hx
    simp [Json.numbers, Json.itemNumbers, Json.ofInt] at hx
  obtain ⟨hget, hset, htext⟩ := runs_agree
  refine ⟨hprints, ?_, ?_, ?_⟩
  · refine hget [] [sampleRun (.set "a" "1")] (sampleRun (.set Service.passwordKey "[1, true]"))
      (sampleRun (.get Service.passwordKey)) _ _ _ rfl hfloats hprints ⟨fun h => ?_, trivial⟩ rfl
      (valid_sampleRun _)
    have hne : "a" ≠ Service.passwordKey := by decide
    exact absurd h hne
  · exact hset [] _ (sampleRun (.set "a" "1")) _ _ _ rfl hfails
  · exact htext _ (Service.canonical_nested 127) (Service.floatsReadBack_nested 127)
      (Nat.le_of_eq (Service.depth_nested 127))

end CommandLine

end SettingStore
