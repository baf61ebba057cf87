import SettingStore.Proofs.Service.Call
import SettingStore.Proofs.Service.Frame
import SettingStore.Proofs.Service.Guarded
import SettingStore.Proofs.Session.Among

set_option autoImplicit false

/-! # The key stays unique

Where there is a unique index on the key and no key is stored twice, every call of the service
keeps it so, whatever other calls are made to the store between its own and whichever of its
own fail (`steady_call`). Hence it stays so in every state that a sequence of calls leads
through (`unique_index_lasts`).
-/

namespace SettingStore

open Session
open Document (KeysDistinct find?)

namespace Service

variable {store : Store} {state : store.State} {α : Type}

/-! ## Sessions that keep the key unique -/

/-- Among other calls of the service, the session keeps the key unique. -/
abbrev Steady (store : Store) (s : Session α) (state : store.State) : Prop :=
  Among store.backend (Guarded store) (Onward store) s state

/-- Without others, too, the key is unique in the end. -/
theorem Steady.ends {s : Session α} (h : Steady store s state) (guarded : Guarded store state) :
    Ends store.backend (fun _ now => Guarded store now) s state := by
  intro faults
  have hlast := List.mem_of_getLast? (Session.getLast?_trace store.backend faults s state)
  exact (h.trace Onward.refl Onward.trans guarded faults _ hlast).1

theorem steady_request {request : Request}
    (harmless : ∀ now, Onward store state now → Harmless store now request) :
    Steady store (call request) state :=
  among_call fun now guarded honward => onward_answer guarded (harmless now honward)

theorem steady_bind {β : Type} {s : Session α} {next : α → Session β} (h : Steady store s state)
    (hnext : ∀ a now, Onward store state now → Steady store (next a) now) :
    Steady store (s >>= next) state :=
  h.bind Onward.refl Onward.trans hnext

theorem steady_looksUp {s : Session α} (h : s.LooksUp) (state : store.State) :
    Steady store s state :=
  h.among Onward.refl (fun now kind id => congrArg Prod.snd (Store.knows store now kind id)) state

theorem steady_get (state : store.State) (service : Service) (key : String) :
    Steady store (service.get key) state := by
  have hfind : Steady store (call (.findSetting key)) state := steady_request fun _ _ => trivial
  refine steady_bind hfind fun found now _ => ?_
  cases found with
  | none => exact among_done _ now
  | some d => exact among_done _ now

/-- A value that was read goes on to an outcome. -/
theorem steady_get_bind (state : store.State) (service : Service) (key : String)
    {next : Json → Session α} (hnext : ∀ v, ∃ outcome, next v = .done outcome) :
    Steady store (service.get key >>= next) state := by
  refine steady_bind (steady_get state service key) fun v now _ => ?_
  obtain ⟨outcome, h⟩ := hnext v
  rw [h]
  exact among_done outcome now

/-! ## Writing -/

/-- A setting is normalized and saved under an id that is owned by its key. -/
theorem steady_save (service : Service) {s : Setting} (owned : Owned store state s) :
    Steady store (service.validate s >>= fun s => call (.saveSetting s)) state := by
  rw [validate]
  cases service.registry.handler? s.key with
  | none => exact among_done _ state
  | some handler =>
      dsimp only
      rw [bind_assoc']
      have hnormalize : Steady store (handler.normalize s) state :=
        steady_looksUp (handler.looksUp_normalize s) state
      refine steady_bind hnormalize fun v now honward => ?_
      rw [pure_bind']
      -- The id is still owned by the key, whatever happened since it was found.
      exact steady_request fun later hlater =>
        ((honward.trans hlater).owned s owned).congr rfl rfl

theorem steady_set (state : store.State) (service : Service) (key : String) (v : Json) :
    Steady store (service.set key v) state := by
  intro now guarded honward
  rw [Store.answer_findSetting]
  refine ⟨among_done _ now, ⟨guarded, Onward.refl now⟩, ?_⟩
  cases hfound : find? key (store.documents now) with
  | none => exact steady_save service (owned_of_none store now key v)
  | some d =>
      have hd : d ∈ store.documents now := (Document.find?_spec hfound).1
      exact steady_save service (owned_of_mem guarded.orderly hd v)

theorem steady_removeAll (state : store.State) (docs : List Document) :
    Steady store (removeAll docs) state := by
  induction docs generalizing state with
  | nil => exact among_done _ state
  | cons d rest ih =>
      have hcall : Steady store (call (.removeSetting d.id)) state :=
        steady_request fun _ _ => trivial
      exact steady_bind hcall fun _ now _ => ih now

theorem steady_unset (state : store.State) (key : String) : Steady store (unset key) state := by
  have hlist : Steady store (call (.listSettings ⟨some key, none⟩)) state :=
    steady_request fun _ _ => trivial
  exact steady_bind hlist fun docs now _ => steady_removeAll now docs

/-! ## Reconnecting -/

theorem steady_removeExtra (state : store.State) (ids : List Int) :
    Steady store (removeExtra ids) state := by
  induction ids generalizing state with
  | nil => exact among_done _ state
  | cons id rest ih =>
      have hcall : Steady store (attempt (.removeSetting id)) state :=
        among_attempt fun now guarded _ => onward_answer guarded trivial
      exact steady_bind hcall fun _ now _ => ih now

/-- A repair that drops no index. -/
theorem steady_repair (state : store.State) : Steady store (repair []) state := by
  have hlist : Steady store (call .listDuplicates) state := steady_request fun _ _ => trivial
  show Steady store (call .listDuplicates >>= fun groups => removeDuplicates groups >>= fun _ =>
    call (.createIndex keyField true)) state
  refine steady_bind hlist fun groups now _ => ?_
  rw [removeDuplicates_eq]
  exact steady_bind (steady_removeExtra now _) fun _ later _ => steady_request fun _ _ => ⟨rfl, rfl⟩

/-- The index is among those that are listed, and if they cannot be listed none is dropped. -/
theorem steady_reconnect (state : store.State) : Steady store reconnect state := by
  rw [reconnect_eq]
  intro now guarded honward
  refine ⟨steady_repair now, ⟨?_, ?_⟩, ?_⟩
  all_goals rw [Store.answer_listIndexes]
  · exact guarded
  · exact Onward.refl now
  · show Steady store (if (store.indexes now).any (·.isUniqueOn keyField) then pure ()
      else repair (store.indexes now)) now
    rw [if_pos (any_isUniqueOn_iff.2 guarded.unique)]
    exact among_done _ now

/-! ## Calls -/

/-- Every call of the service keeps the key unique. -/
theorem steady_call (state : store.State) (service : Service) (call : Call) :
    Steady store (call.session service) state := by
  cases call with
  | connect => exact steady_bind (steady_reconnect state) fun _ now _ => among_done _ now
  | reconnect => exact steady_reconnect state
  | get key => exact steady_get state service key
  | getOr key otherwise =>
      have hfind : Steady store (.call (.findSetting key)) state :=
        steady_request fun _ _ => trivial
      refine steady_bind hfind fun found now _ => ?_
      cases found with
      | none => exact among_done _ now
      | some d => exact among_done _ now
  | getString key => exact steady_get_bind state service key fun v => by cases v <;> exact ⟨_, rfl⟩
  | getInt key =>
      refine steady_get_bind state service key fun v => ?_
      cases v with
      | null => exact ⟨_, rfl⟩
      | _ =>
          dsimp only
          split <;> exact ⟨_, rfl⟩
  | getBool key => exact steady_get_bind state service key fun v => by cases v <;> exact ⟨_, rfl⟩
  | defaultValue key => exact among_done _ state
  | set key v => exact steady_set state service key v
  | unset key => exact steady_unset state key
  | validate s => exact steady_looksUp (service.looksUp_validate s) state
  | list start => exact steady_request fun _ _ => trivial

/-! ## Sequences of calls -/

/-- A call to one of the services of the store, with the faults that it meets. -/
structure Visit where
  service : Service
  call : Call
  faults : Faults

/-- The states that calls lead through, one request after the other. -/
def trace {σ : Type} (backend : Backend σ) : List Visit → σ → List σ
  | [], state => [state]
  | ⟨service, call, faults⟩ :: rest, state =>
      (call.session service).trace backend faults state ++
        trace backend rest ((call.session service).run backend faults state).2

/-- The calls of one service end where its trace does. -/
theorem getLast?_trace {σ : Type} (service : Service) (backend : Backend σ)
    (calls : List (Call × Faults)) (state : σ) :
    (trace backend (calls.map fun c => ⟨service, c.1, c.2⟩) state).getLast?
      = some (service.serve backend calls state).2 := by
  induction calls generalizing state with
  | nil => rfl
  | cons first rest ih =>
      rw [List.map_cons, trace, List.getLast?_append, ih]
      rfl

theorem guarded_trace (visits : List Visit) {state : store.State} (guarded : Guarded store state) :
    ∀ now ∈ trace store.backend visits state, Guarded store now := by
  induction visits generalizing state with
  | nil =>
      intro now hnow
      rw [List.mem_singleton.1 hnow]
      exact guarded
  | cons visit rest ih =>
      have steady := steady_call state visit.service visit.call
      intro now hnow
      rcases List.mem_append.1 hnow with hnow | hnow
      · exact (steady.trace Onward.refl Onward.trans guarded visit.faults now hnow).1
      · exact ih (steady.ends guarded visit.faults) now hnow

/-- Once there is a unique index on exactly the key and no key is stored twice, it stays so.
Over either store, from every attainable state of this kind, and for every sequence of calls,
whichever of their requests fail: the index is there and no key is stored twice after every
single request. In particular this holds after `connect` and `reconnect`. -/
theorem unique_index_lasts (store : Store) {state : store.State}
    (attainable : store.Attainable state)
    (unique : ∃ index ∈ store.indexes state, index.unique = true ∧ index.fields = [keyField])
    (keys : KeysDistinct (store.documents state)) (visits : List Visit) :
    ∀ now ∈ trace store.backend visits state,
      (∃ index ∈ store.indexes now, index.unique = true ∧ index.fields = [keyField]) ∧
        KeysDistinct (store.documents now) := by
  have guarded : Guarded store state := by
    obtain ⟨index, hindex, hunique⟩ := unique
    exact ⟨attainable.orderly, ⟨index, hindex, Index.isUniqueOn_iff.2 hunique⟩, keys⟩
  intro now hnow
  obtain ⟨-, ⟨index, hindex, hunique⟩, hkeys⟩ := guarded_trace visits guarded now hnow
  exact ⟨⟨index, hindex, Index.isUniqueOn_iff.1 hunique⟩, hkeys⟩

/-- A table in which a key is stored twice. -/
def passwordTwice : Table :=
  ⟨[⟨1, passwordKey, some "null"⟩, ⟨2, passwordKey, some "true"⟩], 2, [], [], false⟩

/-- The value of a key is stored anew, and a repair runs while the indexes cannot be listed. -/
def unsetAndSet : List Visit :=
  [⟨coreService, .unset passwordKey, Faults.none⟩,
    ⟨coreService, .set passwordKey (.bool false), Faults.none⟩,
    ⟨coreService, .reconnect, Faults.ofKinds [.listIndexes]⟩]

/-- The table once it is repaired. -/
theorem unique_index_lasts_of_passwordTwice :
    let repaired := (reconnect.run Table.backend Faults.none passwordTwice).2
    (reconnect.run Table.backend Faults.none passwordTwice).1 = .ok () ∧
      (trace Table.backend unsetAndSet repaired).getLast?.map Table.documents
        = some [⟨3, passwordKey, .bool false⟩] ∧
      ∀ now ∈ trace Table.backend unsetAndSet repaired, KeysDistinct now.documents := by
  have attainable : Store.table.Attainable passwordTwice :=
    .answer (.saveSetting ⟨none, passwordKey, .bool true⟩)
      (.answer (.saveSetting ⟨none, passwordKey, .null⟩) .empty)
  refine ⟨rfl, rfl, fun now hnow => ?_⟩
  exact (unique_index_lasts .table (attainable.run reconnect Faults.none)
    ⟨⟨"idx_settings_key_unique", ["key"], true⟩, List.mem_cons_self, rfl, rfl⟩ (by decide)
    unsetAndSet now hnow).2

end Service

end SettingStore
