import SettingStore.Proofs.Service.Call
import SettingStore.Proofs.Service.Frame
import SettingStore.Proofs.Text.ByteOrder

set_option autoImplicit false

/-! # The service as a map from keys to values

Seen from outside, a service over the store in memory is a map from keys to the value that
counts, with the id under which it is stored. `Service.Allows` says what each call may answer
over such a map and what becomes of it. `Allows.of_call` proves this of every call, by way of
an invariant that connecting establishes (`Serving`), and `memory_refines_map` of every run.
-/

namespace SettingStore

open Session
open Document (IdsIncrease KeysDistinct find?)

/-! ## The map -/

/-- For each stored key the id and the value that count. -/
abbrev Contents := String → Option (Int × Json)

namespace Contents

/-- The contents of a list of documents: the document with the lowest id counts. -/
def of (docs : List Document) : Contents := fun key => (find? key docs).map fun d => (d.id, d.value)

/-- The contents with another value for a key. -/
def put (M : Contents) (key : String) (held : Int × Json) : Contents := fun other =>
  if other = key then some held else M other

/-- The contents without a key. -/
def erase (M : Contents) (key : String) : Contents := fun other =>
  if other = key then none else M other

@[simp] theorem put_self (M : Contents) (key : String) (held : Int × Json) :
    M.put key held key = some held := if_pos rfl

@[simp] theorem erase_self (M : Contents) (key : String) : M.erase key key = none := if_pos rfl

/-- Where a key is stored, its contents are its document with the lowest id. -/
theorem of_eq_some_iff {docs : List Document} (ids : IdsIncrease docs) {key : String}
    {held : Int × Json} :
    of docs key = some held ↔ ⟨held.1, key, held.2⟩ ∈ docs ∧
      ∀ d ∈ docs, d.key = key → held.1 ≤ d.id := by
  rw [of, Option.map_eq_some_iff]
  constructor
  · rintro ⟨d, hfound, rfl⟩
    obtain ⟨hmem, rfl, hle⟩ := Document.find?_spec hfound
    exact ⟨hmem, hle⟩
  · rintro ⟨hmem, hle⟩
    exact ⟨_, (Document.find?_eq_some_iff ids).2 ⟨hmem, rfl, hle⟩, rfl⟩

/-- Where no key is stored twice, the contents are the documents. -/
theorem of_key_eq_some_iff {docs : List Document} (ids : IdsIncrease docs)
    (keys : KeysDistinct docs) {d : Document} :
    of docs d.key = some (d.id, d.value) ↔ d ∈ docs := by
  rw [of_eq_some_iff ids]
  refine ⟨And.left, fun hmem => ⟨hmem, fun e he hkey => ?_⟩⟩
  rw [keys.eq_of_key ids he hmem hkey]

/-- The id that a key takes is the one that it has in the contents, or one that no key has. -/
theorem of_takesPlace {docs : List Document} {key : String} {id : Int}
    (h : Document.TakesPlace docs key id) :
    (∀ held, of docs key = some held → id = held.1) ∧
      (of docs key = none → ∀ other held, of docs other = some held → id ≠ held.1) := by
  unfold Document.TakesPlace at h
  constructor
  · intro held hheld
    obtain ⟨d, hfound, rfl⟩ := Option.map_eq_some_iff.1 hheld
    rw [hfound] at h
    exact h
  · intro hnone other held hheld
    rw [of, Option.map_eq_none_iff] at hnone
    rw [hnone] at h
    obtain ⟨d, hfound, rfl⟩ := Option.map_eq_some_iff.1 hheld
    exact h d (Document.find?_spec hfound).1

end Contents

/-! ## What a call may answer -/

/-- What a handler makes of a setting where these entities exist. -/
def Handler.verdict (handler : Handler) (entities : List Entity) (s : Setting) :
    Except Error Json :=
  ((handler.normalize s).run Memory.backend Faults.none { Memory.empty with entities }).1

namespace Service

/-- The value that holds for a key: the stored one, else the registered default, else the
default of the handler, else null. -/
def effective (service : Service) (M : Contents) (key : String) : Json :=
  ((M key).map (·.2) <|> service.registry.staticDefault? key <|>
    (service.registry.handler? key).bind Handler.default?).getD .null

theorem effective_of_stored {service : Service} {M : Contents} {key : String} {id : Int} {v : Json}
    (h : M key = some (id, v)) : service.effective M key = v := by
  rw [effective, h]
  rfl

/-- A value as a text; null is none. -/
def stringOf (key : String) : Json → Except Error (Option String)
  | .null => .ok none
  | .string s => .ok (some s)
  | v => .error (mismatch key "a string" v)

/-- A value as a whole number; null is none. -/
def intOf (key : String) : Json → Except Error (Option Int)
  | .null => .ok none
  | v => match v.signed? with
      | some n => .ok (some n)
      | none => .error (mismatch key "an integer" v)

/-- A value as a truth value; null is none. -/
def boolOf (key : String) : Json → Except Error (Option Bool)
  | .null => .ok none
  | .bool b => .ok (some b)
  | v => .error (mismatch key "a boolean" v)

/-- What a call may answer over the contents `M`, and what the contents `M'` are afterwards. -/
def Allows (service : Service) (entities : List Entity) :
    (call : Call) → (M : Contents) → Except Error call.Answer → (M' : Contents) → Prop
  | .connect, M, outcome, M' => outcome = .ok service ∧ M' = M
  | .reconnect, M, outcome, M' => outcome = .ok () ∧ M' = M
  | .get key, M, outcome, M' => outcome = .ok (service.effective M key) ∧ M' = M
  | .getOr key otherwise, M, outcome, M' =>
      outcome = .ok (((M key).map (·.2)).getD otherwise) ∧ M' = M
  | .getString key, M, outcome, M' => outcome = stringOf key (service.effective M key) ∧ M' = M
  | .getInt key, M, outcome, M' => outcome = intOf key (service.effective M key) ∧ M' = M
  | .getBool key, M, outcome, M' => outcome = boolOf key (service.effective M key) ∧ M' = M
  | .defaultValue key, M, outcome, M' =>
      outcome = .ok (service.registry.staticDefault? key <|>
        (service.registry.handler? key).bind Handler.default?) ∧ M' = M
  | .set key v, M, outcome, M' =>
      match service.registry.handler? key with
      | none => outcome = .error (CoreKey.unknown key) ∧ M' = M
      | some handler =>
          match handler.verdict entities ⟨(M key).map (·.1), key, v⟩ with
          | .error e => outcome = .error e ∧ M' = M
          | .ok w => ∃ id, outcome = .ok ⟨id, key, w⟩ ∧ M' = M.put key (id, w) ∧
              (∀ held, M key = some held → id = held.1) ∧
              -- A key that was not stored gets an id of its own.
              (M key = none → ∀ other held, M other = some held → id ≠ held.1)
  | .unset key, M, outcome, M' => outcome = .ok () ∧ M' = M.erase key
  | .validate s, M, outcome, M' =>
      (match service.registry.handler? s.key with
        | none => outcome = .error (CoreKey.unknown s.key)
        | some handler =>
            outcome = (handler.verdict entities s).map fun v => { s with value := v }) ∧ M' = M
  | .list start, M, outcome, M' =>
      ∃ docs, outcome = .ok docs ∧
        docs.Pairwise (fun d e => Text.bytes d.key < Text.bytes e.key) ∧
        (∀ d, d ∈ docs ↔ M d.key = some (d.id, d.value) ∧
          ∀ text, start = some text → text.toList <+: d.key.toList) ∧ M' = M

/-- The replies are ones that a map allows that starts with the contents `M`. -/
def AllowsRun (service : Service) (entities : List Entity) : Contents → List Reply → Prop
  | _, [] => True
  | M, reply :: rest =>
      ∃ M', service.Allows entities reply.call M reply.outcome M' ∧
        AllowsRun service entities M' rest

/-- The next reply of a run that a map allows. -/
theorem AllowsRun.next {service : Service} {entities : List Entity} {M : Contents} {call : Call}
    {calls : List Call} {replies : List Reply} (hcalls : replies.map Reply.call = call :: calls)
    (allows : service.AllowsRun entities M replies) :
    ∃ (outcome : Except Error call.Answer) (rest : List Reply) (M' : Contents),
      replies = ⟨call, outcome⟩ :: rest ∧ service.Allows entities call M outcome M' ∧
      rest.map Reply.call = calls ∧ service.AllowsRun entities M' rest := by
  obtain ⟨⟨_, outcome⟩, rest, rfl, rfl, hrest⟩ := List.map_eq_cons_iff.1 hcalls
  obtain ⟨M', hallows, hrun⟩ := allows
  exact ⟨outcome, rest, M', rfl, hallows, hrest, hrun⟩

/-! ## Reading -/

section Reading

variable (store : Store) (state : store.State) (service : Service)

theorem run_none_get (key : String) :
    (service.get key).run store.backend Faults.none state
      = (.ok (service.effective (Contents.of (store.documents state)) key), state) := by
  rw [get, run_none_find, effective, Contents.of, ← default?_eq]
  cases find? key (store.documents state) <;> rfl

theorem run_none_getOr (key : String) (otherwise : Json) :
    (getOr key otherwise).run store.backend Faults.none state
      = (.ok (((Contents.of (store.documents state) key).map (·.2)).getD otherwise), state) := by
  rw [getOr, run_none_find, Contents.of]
  cases find? key (store.documents state) <;> rfl

theorem run_none_getString (key : String) :
    (service.getString key).run store.backend Faults.none state
      = (stringOf key (service.effective (Contents.of (store.documents state)) key), state) := by
  rw [getString, run_none_bind, run_none_get]
  cases service.effective (Contents.of (store.documents state)) key <;> rfl

theorem run_none_getInt (key : String) :
    (service.getInt key).run store.backend Faults.none state
      = (intOf key (service.effective (Contents.of (store.documents state)) key), state) := by
  rw [getInt, run_none_bind, run_none_get]
  cases service.effective (Contents.of (store.documents state)) key with
  | number n =>
      dsimp only [intOf]
      cases (Json.number n).signed? <;> rfl
  | _ => rfl

theorem run_none_getBool (key : String) :
    (service.getBool key).run store.backend Faults.none state
      = (boolOf key (service.effective (Contents.of (store.documents state)) key), state) := by
  rw [getBool, run_none_bind, run_none_get]
  cases service.effective (Contents.of (store.documents state)) key <;> rfl

theorem run_none_list (start : Option String) :
    (list start).run store.backend Faults.none state
      = (.ok (Document.list ⟨none, start⟩ (store.documents state)), state) := by
  rw [list, call, run_none_ask, Store.answer_listSettings, run_done]

end Reading

/-! ## Normalizing -/

section Normalizing

variable {store : Store} {state : store.State} {entities : List Entity}

/-- Over any store a handler decides according to the entities that exist. -/
theorem run_none_normalize (has : store.HasEntities state entities) (handler : Handler)
    (s : Setting) :
    (handler.normalize s).run store.backend Faults.none state
      = (handler.verdict entities s, state) := by
  have looksUp := handler.looksUp_normalize s
  refine Prod.ext ?_ (looksUp.run_state (Store.knows store state) Faults.none)
  exact looksUp.run_eq (Store.knows store state)
    (Store.knows .memory { Memory.empty with entities }) has Faults.none

theorem run_none_validate (has : store.HasEntities state entities) (service : Service)
    (s : Setting) :
    (service.validate s).run store.backend Faults.none state
      = ((match service.registry.handler? s.key with
          | none => .error (CoreKey.unknown s.key)
          | some handler => (handler.verdict entities s).map fun v => { s with value := v }),
        state) := by
  rw [validate]
  cases service.registry.handler? s.key with
  | none => rfl
  | some handler =>
      dsimp only
      rw [run_none_bind, run_none_normalize has]
      cases handler.verdict entities s <;> rfl

/-- What `set` does once the value was accepted is to save it under the id that is stored. -/
theorem run_none_set (has : store.HasEntities state entities) (service : Service) (key : String)
    (v : Json) :
    (service.registry.handler? key = none ∧
      (service.set key v).run store.backend Faults.none state
        = (.error (CoreKey.unknown key), state)) ∨
    ∃ handler, service.registry.handler? key = some handler ∧
      ((∃ e, handler.verdict entities
            ⟨(Contents.of (store.documents state) key).map (·.1), key, v⟩ = .error e ∧
          (service.set key v).run store.backend Faults.none state = (.error e, state)) ∨
        ∃ w, handler.verdict entities
            ⟨(Contents.of (store.documents state) key).map (·.1), key, v⟩ = .ok w ∧
          (service.set key v).run store.backend Faults.none state
            = store.backend.answer state (.saveSetting
                ⟨(Contents.of (store.documents state) key).map (·.1), key, w⟩)) := by
  have hset : (service.set key v).run store.backend Faults.none state
      = (service.validate ⟨(Contents.of (store.documents state) key).map (·.1), key, v⟩ >>= fun s =>
          call (.saveSetting s)).run store.backend Faults.none state := by
    rw [set, run_none_find, Contents.of]
    cases hfound : find? key (store.documents state) with
    | none => rfl
    | some d =>
        dsimp only [Option.map_some]
        rw [(Document.find?_spec hfound).2.1]
  rw [hset, run_none_bind, run_none_validate has]
  dsimp only
  cases service.registry.handler? key with
  | none => exact Or.inl ⟨rfl, rfl⟩
  | some handler =>
      refine Or.inr ⟨handler, rfl, ?_⟩
      dsimp only
      cases handler.verdict entities
          ⟨(Contents.of (store.documents state) key).map (·.1), key, v⟩ with
      | error e => exact Or.inl ⟨e, rfl, rfl⟩
      | ok w => exact Or.inr ⟨w, rfl, rfl⟩

end Normalizing

/-! ## The invariant -/

/-- A service can rely on this once it is connected. -/
structure Serving (store : Store) (entities : List Entity) (state : store.State) : Prop where
  sound : store.Sound state
  unique : HasUniqueIndex store state
  keys : KeysDistinct (store.documents state)
  has : store.HasEntities state entities

variable {entities : List Entity}

/-- Over the store in memory an accepted value is saved under its old id or a new one. -/
theorem Serving.save {m : Memory} (serving : Serving .memory entities m) (key : String) (w : Json) :
    ∃ id m', Memory.backend.answer m
        (.saveSetting ⟨(Contents.of m.documents key).map (·.1), key, w⟩) = (.ok ⟨id, key, w⟩, m') ∧
      Serving .memory entities m' ∧
      Contents.of m'.documents = (Contents.of m.documents).put key (id, w) ∧
      (∀ held, Contents.of m.documents key = some held → id = held.1) ∧
      (Contents.of m.documents key = none →
        ∀ other held, Contents.of m.documents other = some held → id ≠ held.1) := by
  have sound : m.Sound := serving.sound
  have hplace := Memory.takesPlace_save sound.orderly key w
  have hgiven : (Contents.of m.documents key).map (·.1) = (find? key m.documents).map (·.id) := by
    rw [Contents.of, Option.map_map]
    rfl
  rw [hgiven]
  obtain ⟨s, hs⟩ : ∃ s : Setting, s = ⟨(find? key m.documents).map (·.id), key, w⟩ := ⟨_, rfl⟩
  rw [← hs] at hplace ⊢
  have hkey : (m.save s).1.key = key := by rw [Memory.save_key, hs]
  have hvalue : (m.save s).1.value = w := by rw [Memory.save_value, hs]
  have hsound := Memory.sound_save sound s
  obtain ⟨hkeys', hfind⟩ := Document.find?_of_put sound.ids hsound.ids serving.keys
    (fun e => Memory.mem_save sound.orderly s) fun e he => by
      rw [hkey]
      exact hplace.key_iff sound.ids serving.keys he
  refine ⟨(m.save s).1.id, (m.save s).2, Prod.ext ?_ rfl, ⟨hsound, ?_, hkeys', ?_⟩, ?_,
    Contents.of_takesPlace hplace⟩
  · show Except.ok (m.save s).1 = .ok (⟨(m.save s).1.id, key, w⟩ : Document)
    rw [← hkey, ← hvalue]
  · obtain ⟨index, hindex, hunique⟩ := serving.unique
    refine ⟨index, ?_, hunique⟩
    show index ∈ (m.save s).2.indexes
    rw [Memory.save_indexes]
    exact hindex
  · refine serving.has.of_eq ?_
    exact Store.entity?_answer serving.sound.orderly (.saveSetting s) fun _ h => by cases h
  · funext other
    show (find? other (m.save s).2.documents).map (fun d => (d.id, d.value)) = _
    rw [hfind, hkey, Contents.put]
    split
    · rw [Option.map_some, hvalue]
    · rfl

/-- Every call to a connected service answers what the map allows, and the service stays
connected. -/
theorem Allows.of_call (service : Service) (call : Call) {m : Memory}
    (serving : Serving .memory entities m) :
    ∃ outcome m', (call.session service).run Memory.backend Faults.none m = (outcome, m') ∧
      service.Allows entities call (Contents.of m.documents) outcome (Contents.of m'.documents) ∧
      Serving .memory entities m' := by
  have ids : IdsIncrease m.documents := serving.sound.ids
  cases call with
  | connect =>
      have hrun := run_none_reconnect_of_hasUniqueIndex serving.unique
      refine ⟨.ok service, m, ?_, ⟨rfl, rfl⟩, serving⟩
      show (connect service.registry).run Store.memory.backend Faults.none m = _
      rw [connect, run_none_bind, hrun]
      rfl
  | reconnect =>
      exact ⟨_, m, run_none_reconnect_of_hasUniqueIndex serving.unique, ⟨rfl, rfl⟩, serving⟩
  | get key => exact ⟨_, m, run_none_get .memory m service key, ⟨rfl, rfl⟩, serving⟩
  | getOr key otherwise => exact ⟨_, m, run_none_getOr .memory m key otherwise, ⟨rfl, rfl⟩, serving⟩
  | getString key => exact ⟨_, m, run_none_getString .memory m service key, ⟨rfl, rfl⟩, serving⟩
  | getInt key => exact ⟨_, m, run_none_getInt .memory m service key, ⟨rfl, rfl⟩, serving⟩
  | getBool key => exact ⟨_, m, run_none_getBool .memory m service key, ⟨rfl, rfl⟩, serving⟩
  | defaultValue key =>
      exact ⟨_, m, rfl, ⟨congrArg Except.ok (default?_eq service key), rfl⟩, serving⟩
  | set key v =>
      rcases run_none_set serving.has service key v with
        ⟨hhandler, hrun⟩ | ⟨handler, hhandler, ⟨e, hverdict, hrun⟩ | ⟨w, hverdict, hrun⟩⟩
      · refine ⟨_, m, hrun, ?_, serving⟩
        rw [Allows, hhandler]
        exact ⟨rfl, rfl⟩
      · refine ⟨_, m, hrun, ?_, serving⟩
        have hverdict' : handler.verdict entities
          ⟨(Contents.of m.documents key).map (·.1), key, v⟩ = .error e := hverdict
        rw [Allows, hhandler]
        dsimp only
        rw [hverdict']
        exact ⟨rfl, rfl⟩
      · obtain ⟨id, m', hsave, hserving, hput, hold, hnew⟩ := serving.save key w
        have hverdict' : handler.verdict entities
          ⟨(Contents.of m.documents key).map (·.1), key, v⟩ = .ok w := hverdict
        refine ⟨_, m', hrun.trans hsave, ?_, hserving⟩
        rw [Allows, hhandler]
        dsimp only
        rw [hverdict']
        exact ⟨id, rfl, hput, hold, hnew⟩
  | unset key =>
      obtain ⟨m', hrun, hsound, hentities, hindexes, hsub, hmem⟩ :=
        run_none_unset serving.sound key
      refine ⟨_, m', hrun, ⟨rfl, ?_⟩, hsound, ?_, ?_, serving.has.of_eq hentities⟩
      · funext other
        have hfind := Document.find?_of_erase ids hsound.ids hmem other
        show (find? other (Store.memory.documents m')).map (fun d => (d.id, d.value)) = _
        rw [hfind, Contents.erase]
        split <;> rfl
      · obtain ⟨index, hindex, hunique⟩ := serving.unique
        exact ⟨index, hindexes ▸ hindex, hunique⟩
      · exact serving.keys.sublist (hsub.map _)
  | validate s =>
      refine ⟨_, m, run_none_validate serving.has service s, ?_, serving⟩
      rw [Allows]
      cases service.registry.handler? s.key <;> exact ⟨rfl, rfl⟩
  | list start =>
      refine ⟨_, m, run_none_list .memory m start, ⟨_, rfl, ?_, fun d => ?_, rfl⟩, serving⟩
      · exact (Document.list_keys_increase _ serving.keys).imp Text.bytes_lt_iff.2
      · rw [Contents.of_key_eq_some_iff ids serving.keys, Document.mem_list, Document.admits_iff]
        exact and_congr_right fun _ => by simp

/-! ## Runs -/

/-- A run of a connected service is one that its contents allow. -/
theorem allowsRun_serve (service : Service) (calls : List Call) {m : Memory}
    (serving : Serving .memory entities m) :
    service.AllowsRun entities (Contents.of m.documents)
      (service.serve Memory.backend (calls.map fun call => (call, Faults.none)) m).1 := by
  induction calls generalizing m with
  | nil => trivial
  | cons call rest ih =>
      obtain ⟨outcome, m', hrun, hallows, hserving⟩ := Allows.of_call service call serving
      rw [List.map_cons, serve_cons, hrun]
      exact ⟨_, hallows, ih hserving⟩

/-- Connecting keeps the contents and makes the service ready. -/
theorem serving_of_connect (registry : FrozenRegistry) {state : Memory}
    (sound : Store.memory.Sound state) (has : Store.memory.HasEntities state entities)
    (none : Store.memory.indexes state = []) :
    ∃ opened, (connect registry).run Memory.backend Faults.none state = (.ok ⟨registry⟩, opened) ∧
      Contents.of opened.documents = Contents.of state.documents ∧
      Serving .memory entities opened := by
  have hnone : ¬ HasUniqueIndex .memory state := by
    rintro ⟨index, hindex, -⟩
    rw [none] at hindex
    exact absurd hindex List.not_mem_nil
  have hok := run_none_reconnect sound
  have hends := ends_reconnect sound (fun h => absurd h hnone) Faults.none
  have hspares := spares_reconnect sound.orderly Faults.none
  cases hrun : reconnect.run Store.memory.backend Faults.none state with
  | mk outcome opened =>
      rw [hrun] at hok hends hspares
      dsimp only at hok hends hspares
      subst hok
      obtain ⟨hunique, hkeys⟩ := hends.established rfl
      refine ⟨opened, ?_, ?_, hends.sound, hunique, hkeys, has.of_eq hends.entities⟩
      · show (connect registry).run Store.memory.backend Faults.none state = _
        rw [connect, run_none_bind, hrun]
        rfl
      · funext key
        exact congrArg (Option.map fun d => (d.id, d.value)) (hspares.found key)

/-- The service over the store in memory is a map from keys to values. Whatever entities and
documents were put in before there was an index, once the service is connected every run of
calls that do not fail has one reply for each call, and the replies are ones that the map allows
whose value for a key is that of the document with the lowest id. -/
theorem memory_refines_map (registry : FrozenRegistry) (entities : List Entity)
    (initial : List (String × Json)) (calls : List Call) :
    let start := Memory.backend.after (setup entities initial) Memory.empty
    ∃ (M : Contents) (opened : Memory),
      (∀ key id v, M key = some (id, v) ↔ ⟨id, key, v⟩ ∈ start.documents ∧
        ∀ d ∈ start.documents, d.key = key → id ≤ d.id) ∧
      (connect registry).run Memory.backend Faults.none start = (.ok ⟨registry⟩, opened) ∧
      let replies :=
        (serve ⟨registry⟩ Memory.backend (calls.map fun call => (call, Faults.none)) opened).1
      replies.map Reply.call = calls ∧ AllowsRun ⟨registry⟩ entities M replies := by
  obtain ⟨hsound, has, hindexes⟩ := Store.after_setup .memory entities initial
  obtain ⟨opened, hconnect, hcontents, hserving⟩ :=
    serving_of_connect registry hsound has hindexes
  refine ⟨Contents.of (Memory.backend.after (setup entities initial) Memory.empty).documents,
    opened, ?_, hconnect, ?_, ?_⟩
  · intro key id v
    exact Contents.of_eq_some_iff hsound.ids
  · rw [map_call_serve, List.map_map]
    exact List.map_id calls
  · have hcontents' : Contents.of opened.documents
        = Contents.of (Memory.backend.after (setup entities initial) Memory.empty).documents :=
      hcontents
    rw [← hcontents']
    exact allowsRun_serve ⟨registry⟩ calls hserving

/-- A password that was put in twice. -/
def oldPasswords : List (String × Json) :=
  [(passwordKey, .string "old"), (passwordKey, .string "late")]

/-- Reading, setting and unsetting a password, and setting a key that no handler is for. -/
def passwordCalls : List Call :=
  [.get passwordKey, .set passwordKey (.bool true), .getString passwordKey, .unset passwordKey,
    .list none, .get passwordKey, .set "core.nowhere" .null]

/-- The first of the two passwords counts, and setting it keeps its id. Once it is unset nothing is
stored any more, and the default holds. -/
theorem memory_refines_map_of_password :
    ∃ opened, (connect coreService.registry).run Memory.backend Faults.none
        (Memory.backend.after (setup [] oldPasswords) Memory.empty) = (.ok coreService, opened) ∧
      (coreService.serve Memory.backend (passwordCalls.map fun call => (call, Faults.none)) opened).1
        = [⟨.get passwordKey, .ok (.string "old")⟩,
          ⟨.set passwordKey (.bool true), .ok ⟨1, passwordKey, .bool true⟩⟩,
          ⟨.getString passwordKey, .error (mismatch passwordKey "a string" (.bool true))⟩,
          ⟨.unset passwordKey, .ok ()⟩,
          ⟨.list none, .ok []⟩,
          ⟨.get passwordKey, .ok (.string "")⟩,
          ⟨.set "core.nowhere" .null, .error (CoreKey.unknown "core.nowhere")⟩] := by
  obtain ⟨M, opened, hM, hconnect, hcalls, hallows⟩ :=
    memory_refines_map coreService.registry [] oldPasswords passwordCalls
  refine ⟨opened, hconnect, ?_⟩
  have hstored : M passwordKey = some (1, .string "old") :=
    (hM _ _ _).2 ⟨List.mem_cons_self, by decide⟩
  have hothers : ∀ d : Document, M d.key = some (d.id, d.value) → d.key = passwordKey := by
    have hkeys : ∀ d ∈ (Memory.backend.after (setup [] oldPasswords) Memory.empty).documents,
        d.key = passwordKey := by decide
    exact fun d hd => hkeys d ((hM _ _ _).1 hd).1
  -- What the map allows leaves one outcome for each call.
  obtain ⟨_, rest₁, _, hget, ⟨rfl, rfl⟩, hcalls₁, hrun₁⟩ := hallows.next hcalls
  obtain ⟨_, rest₂, _, hset, ⟨id, rfl, rfl, hid, -⟩, hcalls₂, hrun₂⟩ := hrun₁.next hcalls₁
  obtain rfl : id = 1 := hid _ hstored
  obtain ⟨_, rest₃, _, hgetString, ⟨rfl, rfl⟩, hcalls₃, hrun₃⟩ := hrun₂.next hcalls₂
  obtain ⟨_, rest₄, _, hunset, ⟨rfl, rfl⟩, hcalls₄, hrun₄⟩ := hrun₃.next hcalls₃
  obtain ⟨_, rest₅, _, hlist, ⟨docs, rfl, -, hmem, rfl⟩, hcalls₅, hrun₅⟩ := hrun₄.next hcalls₄
  obtain ⟨_, rest₆, _, hdefault, ⟨rfl, rfl⟩, hcalls₆, hrun₆⟩ := hrun₅.next hcalls₅
  obtain ⟨_, rest₇, _, hunknown, ⟨rfl, rfl⟩, hcalls₇, -⟩ := hrun₆.next hcalls₆
  have hdocs : docs = [] := by
    refine List.eq_nil_iff_forall_not_mem.2 fun d hd => ?_
    have hd := ((hmem d).1 hd).1
    by_cases hkey : d.key = passwordKey
    · rw [hkey, Contents.erase_self] at hd
      exact Option.some_ne_none _ hd.symm
    · rw [Contents.erase, if_neg hkey, Contents.put, if_neg hkey] at hd
      exact hkey (hothers d hd)
  rw [hget, hset, hgetString, hunset, hlist, hdefault, hunknown, List.map_eq_nil_iff.1 hcalls₇,
    effective_of_stored hstored, effective_of_stored (Contents.put_self ..), hdocs, effective,
    Contents.erase_self]
  rfl

end Service

end SettingStore
