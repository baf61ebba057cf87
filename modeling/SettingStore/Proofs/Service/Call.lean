import SettingStore.Proofs.Store.Either

set_option autoImplicit false

/-! # Calls to the service

A run of the service is a list of calls, each with the faults that it meets. `Service.serve`
makes them one after another and collects the replies. A run starts with the entities and
documents that were put into an empty store before (`setup`).
-/

namespace SettingStore

/-! ## Calls and replies -/

/-- One call to the service. -/
inductive Call where
  | connect
  | reconnect
  | get (key : String)
  | getOr (key : String) (otherwise : Json)
  | getString (key : String)
  | getInt (key : String)
  | getBool (key : String)
  | defaultValue (key : String)
  | set (key : String) (v : Json)
  | unset (key : String)
  | validate (s : Setting)
  | list (start : Option String)

namespace Call

/-- What a successful call answers. -/
abbrev Answer : Call → Type
  | .connect => Service
  | .reconnect => Unit
  | .get _ => Json
  | .getOr _ _ => Json
  | .getString _ => Option String
  | .getInt _ => Option Int
  | .getBool _ => Option Bool
  | .defaultValue _ => Option Json
  | .set _ _ => Document
  | .unset _ => Unit
  | .validate _ => Setting
  | .list _ => List Document

/-- What a service does for a call. -/
def session (service : Service) : (call : Call) → Session call.Answer
  | .connect => Service.connect service.registry
  | .reconnect => Service.reconnect
  | .get key => service.get key
  | .getOr key otherwise => Service.getOr key otherwise
  | .getString key => service.getString key
  | .getInt key => service.getInt key
  | .getBool key => service.getBool key
  | .defaultValue key => pure (service.default? key)
  | .set key v => service.set key v
  | .unset key => Service.unset key
  | .validate s => service.validate s
  | .list start => Service.list start

end Call

/-- A call with its outcome. -/
structure Reply where
  call : Call
  outcome : Except Error call.Answer

namespace Service

variable {σ : Type}

/-- Make calls one after another, each with its own faults. -/
def serve (service : Service) (backend : Backend σ) : List (Call × Faults) → σ → List Reply × σ
  | [], state => ([], state)
  | (call, faults) :: rest, state =>
      let served := (call.session service).run backend faults state
      let others := serve service backend rest served.2
      (⟨call, served.1⟩ :: others.1, others.2)

/-- The states in which the calls are made, and the last one. -/
def passes (service : Service) (backend : Backend σ) : List (Call × Faults) → σ → List σ
  | [], state => [state]
  | (call, faults) :: rest, state =>
      state :: passes service backend rest ((call.session service).run backend faults state).2

theorem mem_passes_self (service : Service) (backend : Backend σ) (calls : List (Call × Faults))
    (state : σ) : state ∈ service.passes backend calls state := by
  cases calls with
  | nil => exact List.mem_cons_self
  | cons first rest => exact List.mem_cons_self

theorem serve_cons (service : Service) (backend : Backend σ) (call : Call) (faults : Faults)
    (rest : List (Call × Faults)) (state : σ) :
    serve service backend ((call, faults) :: rest) state =
      (⟨call, ((call.session service).run backend faults state).1⟩ ::
          (serve service backend rest ((call.session service).run backend faults state).2).1,
        (serve service backend rest ((call.session service).run backend faults state).2).2) :=
  rfl

/-- There is one reply for each call, in the order of the calls. -/
theorem map_call_serve (service : Service) (backend : Backend σ) (calls : List (Call × Faults))
    (state : σ) : (serve service backend calls state).1.map Reply.call = calls.map Prod.fst := by
  induction calls generalizing state with
  | nil => rfl
  | cons first rest ih => exact congrArg (List.cons first.1) (ih _)

end Service

/-! ## Where a run starts -/

/-- The requests that put entities and documents into a store without an index. -/
def setup (entities : List Entity) (initial : List (String × Json)) : List Request :=
  entities.map .createEntity ++ initial.map fun m => .saveSetting ⟨none, m.1, m.2⟩

namespace Store

variable {store : Store} {state : store.State}

/-- In the store there are the entities of the list, as far as looking them up can tell. -/
def HasEntities (store : Store) (state : store.State) (entities : List Entity) : Prop :=
  ∀ kind id, (store.entity? state kind id).isSome
    = (entities.find? fun e => e.kind == kind && e.id == id).isSome

theorem HasEntities.of_eq {state' : store.State} {entities : List Entity}
    (has : store.HasEntities state entities) (h : store.entity? state' = store.entity? state) :
    store.HasEntities state' entities := by
  intro kind id
  rw [h]
  exact has kind id

/-- Created entities are there, beside those that were there before, and indexes are not
touched. -/
theorem after_createEntity (sound : store.Sound state) {before : List Entity}
    (has : store.HasEntities state before) (entities : List Entity) :
    store.Sound (store.backend.after (entities.map .createEntity) state) ∧
      store.HasEntities (store.backend.after (entities.map .createEntity) state)
        (before ++ entities) ∧
      store.indexes (store.backend.after (entities.map .createEntity) state)
        = store.indexes state := by
  induction entities generalizing state before with
  | nil =>
      rw [List.append_nil]
      exact ⟨sound, has, rfl⟩
  | cons entity rest ih =>
      have hnext : store.HasEntities (store.backend.answer state (.createEntity entity)).2
          (before ++ [entity]) := by
        intro kind id
        rw [isSome_entity?_createEntity, has kind id, isSome_find?_append_singleton]
      have hrest := ih (sound_answer sound (.createEntity entity)) hnext
      rw [indexes_createEntity, List.append_assoc] at hrest
      exact hrest

/-- Saving documents touches neither entities nor indexes. -/
theorem after_saveSetting (sound : store.Sound state) (settings : List Setting) :
    store.entity? (store.backend.after (settings.map .saveSetting) state) = store.entity? state ∧
      store.indexes (store.backend.after (settings.map .saveSetting) state)
        = store.indexes state := by
  induction settings generalizing state with
  | nil => exact ⟨rfl, rfl⟩
  | cons s rest ih =>
      obtain ⟨hentities, hindexes⟩ := ih (sound_answer sound (.saveSetting s))
      refine ⟨hentities.trans ?_, hindexes.trans (indexes_saveSetting sound.orderly s)⟩
      exact entity?_answer sound.orderly (.saveSetting s) fun _ h => by cases h

/-- A run starts with the entities that were put in and without an index. -/
theorem after_setup (store : Store) (entities : List Entity) (initial : List (String × Json)) :
    store.Sound (store.backend.after (setup entities initial) store.empty) ∧
      store.HasEntities (store.backend.after (setup entities initial) store.empty) entities ∧
      store.indexes (store.backend.after (setup entities initial) store.empty) = [] := by
  have hsound : store.Sound store.empty := Reachable.empty.sound
  have hnone : store.HasEntities store.empty [] := by
    intro kind id
    cases store <;> rfl
  obtain ⟨hcreated, has, hindexes⟩ := after_createEntity hsound hnone entities
  have hsaved := after_saveSetting hcreated (initial.map fun m => ⟨none, m.1, m.2⟩)
  have hafter : store.backend.after (setup entities initial) store.empty
      = store.backend.after ((initial.map fun m => (⟨none, m.1, m.2⟩ : Setting)).map .saveSetting)
          (store.backend.after (entities.map .createEntity) store.empty) := by
    rw [setup, Backend.after, List.foldl_append, List.map_map]
    rfl
  refine ⟨(Reachable.empty.after _).sound, ?_, ?_⟩
  · rw [hafter]
    exact has.of_eq hsaved.1
  · rw [hafter, hsaved.2, hindexes]
    cases store <;> rfl

end Store

end SettingStore
