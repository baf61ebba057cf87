import SettingStore.Proofs.Service.Repair
import SettingStore.Proofs.Store.Attainable

set_option autoImplicit false

/-! # What a call leaves alone

Over either store, from any state that requests and direct access lead to, and whichever calls
to the store fail: `reconnect` removes only documents that no reader sees, so what is found for
a key is found afterwards as well (`reconnect_unseen_by_readers`); `set` does nothing at all if
it fails and changes a single document if it ends well (`set_changes_one_document`); and `unset`
removes documents of its key only, all of them if it ends well (`unset_removes_key`).
-/

namespace SettingStore

open Session
open Document (find?)

namespace Service

variable {store : Store} {state : store.State}

/-! ## Reconnecting -/

/-- Where the same document is found for a key, the same value is read. -/
theorem inStep_get {state' : store.State} {key : String}
    (same : find? key (store.documents state) = find? key (store.documents state'))
    (service : Service) :
    InStep store.backend store.backend (SameEnd fun _ _ => True) (service.get key)
      (service.get key) state state' := by
  refine .ask (.done ⟨rfl, trivial⟩) ?_
  rw [Store.answer_findSetting, Store.answer_findSetting, same]
  cases find? key (store.documents state') with
  | none => exact .done ⟨rfl, trivial⟩
  | some d => exact .done ⟨rfl, trivial⟩

/-- Reconnecting is not seen by readers. Over either store, from every attainable state and
whichever calls fail, it may remove documents, but changes and adds none; the document with the
lowest id of each key is still there, and what is found and what is read for any key is the
same before and afterwards. -/
theorem reconnect_unseen_by_readers (store : Store) {state : store.State}
    (attainable : store.Attainable state) (faults : Faults) :
    let after := (reconnect.run store.backend faults state).2
    (store.documents after).Sublist (store.documents state) ∧
    (∀ d ∈ store.documents state, (∀ e ∈ store.documents state, e.key = d.key → d.id ≤ e.id) →
      d ∈ store.documents after) ∧
    ∀ key : String,
      (store.backend.answer after (.findSetting key)).1
        = (store.backend.answer state (.findSetting key)).1 ∧
      ∀ (service : Service) (later : Faults),
        ((service.get key).run store.backend later after).1
          = ((service.get key).run store.backend later state).1 := by
  intro after
  have orderly := attainable.orderly
  have hspares : Spares store state after := spares_reconnect orderly faults
  refine ⟨hspares.documents, fun d hd hle => ?_, fun key => ⟨?_, fun service later => ?_⟩⟩
  · have hfound : find? d.key (store.documents state) = some d :=
      (Document.find?_eq_some_iff orderly.ids).2 ⟨hd, rfl, hle⟩
    rw [← hspares.found] at hfound
    exact (Document.find?_spec hfound).1
  · rw [Store.answer_findSetting, Store.answer_findSetting, hspares.found]
  · exact ((inStep_get (hspares.found key) service).run later).1

/-- A failed repair of a key that is stored twice. -/
theorem reconnect_unseen_by_readers_of_failure :
    ∃ t, Store.table.Attainable t ∧ t.documents.map (·.id) = [1, 2] ∧
      let ended := reconnect.run Table.backend (Faults.ofKinds [.createIndex]) t
      ended.1 = .error .database ∧ ended.2.documents.map (·.id) = [1] ∧
        (Table.backend.answer ended.2 (.findSetting "a")).1
          = (Table.backend.answer t (.findSetting "a")).1 := by
  have attainable : Store.table.Attainable _ :=
    .answer (.saveSetting ⟨none, "a", .bool true⟩)
      (.answer (.saveSetting ⟨none, "a", .null⟩) (.answer (.createIndex "key" false) .empty))
  refine ⟨_, attainable, rfl, rfl, rfl, ?_⟩
  exact ((reconnect_unseen_by_readers .table attainable _).2.2 "a").1

/-! ## Setting -/

/-- Normalizing only looks entities up. -/
theorem looksUp_validate (service : Service) (s : Setting) : (service.validate s).LooksUp := by
  rw [validate]
  cases service.registry.handler? s.key with
  | none => exact looksUp_fail _
  | some handler => exact (handler.looksUp_normalize s).bind fun v => looksUp_pure _

/-- A value of a core key is normalized by the rule of the key. -/
theorem validate_core {service : Service} {key : CoreKey} {deployment : Deployment}
    (registered : service.registry.handler? key.name = some (.core key deployment)) {s : Setting}
    (hkey : s.key = key.name) :
    service.validate s
      = key.rule.normalize deployment s.value >>= fun v => pure { s with value := v } := by
  rw [validate, hkey, registered]
  rfl

theorem run_validate_core {service : Service} {key : CoreKey} {deployment : Deployment}
    (registered : service.registry.handler? key.name = some (.core key deployment)) {s : Setting}
    (hkey : s.key = key.name) (store : Store) (faults : Faults) (state : store.State) :
    (service.validate s).run store.backend faults state
      = (((key.rule.normalize deployment s.value).run store.backend faults state).1.map fun v =>
          { s with value := v }, state) := by
  have hstate := (key.rule.looksUp_normalize deployment s.value).run_state
    (Store.knows store state) faults
  rw [validate_core registered hkey, run_bind_pure, hstate]

/-- A setting of a core key that was accepted has the value that the rule of the key answered. -/
theorem normalized_of_validate {service : Service} {key : CoreKey} {deployment : Deployment}
    (registered : service.registry.handler? key.name = some (.core key deployment))
    {s s' : Setting} (hkey : s.key = key.name) {store : Store} {faults : Faults}
    {state : store.State}
    (accepted : ((service.validate s).run store.backend faults state).1 = .ok s') :
    ∃ v, ((key.rule.normalize deployment s.value).run store.backend faults state).1 = .ok v ∧
      s' = { s with value := v } := by
  rw [run_validate_core registered hkey] at accepted
  cases hnormal : ((key.rule.normalize deployment s.value).run store.backend faults state).1 with
  | error e =>
      rw [hnormal] at accepted
      cases accepted
  | ok v =>
      rw [hnormal] at accepted
      exact ⟨v, rfl, (Except.ok.inj accepted).symm⟩

/-- Normalizing changes at most the value, and nothing in the store, whatever calls fail. -/
theorem ends_validate (store : Store) (state : store.State) (service : Service) (s : Setting) :
    Ends store.backend (fun outcome state' => state' = state ∧
      ∀ s', outcome = .ok s' → s'.id = s.id ∧ s'.key = s.key) (service.validate s) state := by
  rw [validate]
  cases service.registry.handler? s.key with
  | none => exact ends_done.2 ⟨rfl, fun s' h => by cases h⟩
  | some handler =>
      refine ends_bind.2 fun faults => ?_
      have hstate := (handler.looksUp_normalize s).run_state (Store.knows store state) faults
      rw [hstate]
      cases ((handler.normalize s).run store.backend faults state).1 with
      | error e => exact before_error.2 ⟨rfl, fun s' h => by cases h⟩
      | ok v =>
          refine before_ok.2 (ends_done.2 ⟨rfl, fun s' h => ?_⟩)
          cases h
          exact ⟨rfl, rfl⟩

/-- Unless the wrong calls fail, the service accepts the setting, with `w` for its value. -/
def Accepts (service : Service) (store : Store) (state : store.State) (s : Setting) (w : Json) :
    Prop :=
  ∃ faults, ((service.validate s).run store.backend faults state).1 = .ok { s with value := w }

/-- Whatever calls fail, `set` ends with an error that changes nothing, or as the store answers
when an accepted value is saved under the id that counts for the key. -/
theorem ends_set_of_accepted {post : Except Error Document → store.State → Prop}
    (service : Service) (key : String) (v : Json) (failed : ∀ e, post (.error e) state)
    (saved : ∀ w, service.Accepts store state
        ⟨(find? key (store.documents state)).map (·.id), key, v⟩ w → post
      (store.backend.answer state (.saveSetting
        ⟨(find? key (store.documents state)).map (·.id), key, w⟩)).1
      (store.backend.answer state (.saveSetting
        ⟨(find? key (store.documents state)).map (·.id), key, w⟩)).2) :
    Ends store.backend post (service.set key v) state := by
  have hsave : Ends store.backend post
      (service.validate ⟨(find? key (store.documents state)).map (·.id), key, v⟩ >>= fun s =>
        call (.saveSetting s)) state := by
    refine ends_bind.2 fun faults => ?_
    obtain ⟨hstate, hvalid⟩ := ends_validate store state service
      ⟨(find? key (store.documents state)).map (·.id), key, v⟩ faults
    rw [hstate]
    cases houtcome : ((service.validate
        ⟨(find? key (store.documents state)).map (·.id), key, v⟩).run store.backend faults
          state).1 with
    | error e => exact before_error.2 (failed e)
    | ok s =>
        obtain ⟨hid, hkey⟩ := hvalid s houtcome
        have hs : s = ⟨(find? key (store.documents state)).map (·.id), key, s.value⟩ :=
          congrFun (congr (congrArg Setting.mk hid) hkey) s.value
        refine before_ok.2 (ends_ask.2 ⟨ends_done.2 (failed _), ends_done.2 ?_⟩)
        rw [hs]
        rw [hs] at houtcome
        exact saved s.value ⟨faults, houtcome⟩
  rw [set]
  refine ends_ask.2 ⟨ends_done.2 (failed _), ?_⟩
  rw [Store.answer_findSetting]
  -- What is validated has the id of the document that counts, if there is one.
  cases hfound : find? key (store.documents state) with
  | none =>
      rw [hfound] at hsave
      exact hsave
  | some d =>
      rw [hfound] at hsave
      show Ends store.backend post
        (service.validate ⟨some d.id, d.key, v⟩ >>= fun s => call (.saveSetting s)) state
      rw [(Document.find?_spec hfound).2.1]
      exact hsave

/-- If `set` ends well, the service accepts the value that is answered, and it is what the store
answers when that value is saved. -/
theorem ends_set_accepted (orderly : store.Orderly state) (service : Service) (key : String)
    (v : Json) :
    Ends store.backend (fun outcome after => ∀ d, outcome = .ok d →
      ∃ id, service.Accepts store state ⟨id, key, v⟩ d.value ∧
        store.backend.answer state (.saveSetting ⟨id, key, d.value⟩) = (.ok d, after))
      (service.set key v) state := by
  refine ends_set_of_accepted service key v (fun _ _ h => by cases h) fun w accepted d hd => ?_
  rcases Store.answer_saveSetting orderly
      ⟨(find? key (store.documents state)).map (·.id), key, w⟩ with h | ⟨saved, after, h, hsaves⟩
  · rw [h] at hd
    cases hd
  · rw [h] at hd
    cases hd
    have hvalue : d.value = w := hsaves.value
    rw [hvalue, h]
    exact ⟨_, accepted, h⟩

/-- What `set` does at most: nothing if it fails, and otherwise it saves a document in the place
of its key. -/
def SavesOne (store : Store) (state : store.State) (key : String) :
    Except Error Document → store.State → Prop
  | .error _, after => after = state
  | .ok saved, after => Document.TakesPlace (store.documents state) key saved.id ∧
      ∃ w, store.Saves state ⟨(find? key (store.documents state)).map (·.id), key, w⟩ saved after

theorem savesOne_set (orderly : store.Orderly state) (service : Service) (key : String) (v : Json) :
    Ends store.backend (SavesOne store state key) (service.set key v) state := by
  refine ends_set_of_accepted service key v (fun e => rfl) fun w _ => ?_
  rcases Store.answer_saveSetting orderly
      ⟨(find? key (store.documents state)).map (·.id), key, w⟩ with h | ⟨saved, after, h, hsaves⟩
  · rw [h]
    rfl
  · rw [h]
    exact ⟨Store.takesPlace_saveSetting orderly h, w, hsaves⟩

/-- If `set` ends well, what it answers is found under the key, with the value as the store keeps
it. -/
theorem ends_set_found (orderly : store.Orderly state) (service : Service) (key : String)
    (v : Json) :
    Ends store.backend (fun outcome after => ∀ s, outcome = .ok s → s.key = key ∧
      find? key (store.documents after) = some ⟨s.id, key, store.readBack s.value⟩)
      (service.set key v) state := by
  intro faults
  have hends := savesOne_set orderly service key v faults
  have horderly := ends_of_kept Store.orderly_answer (service.set key v) orderly faults
  intro s hok
  rw [hok] at hends
  obtain ⟨hplace, w, hsaves⟩ := hends
  rw [hsaves.value]
  exact ⟨hsaves.key, Document.TakesPlace.found horderly.ids hplace hsaves.documents⟩

/-- A `set` that fails changes nothing, and one that ends well changes one document. Over
either store, from every attainable state and whichever calls fail: an error leaves the store
exactly as it was. A document that is answered has the key that was given, and its id is the
lowest one that was stored for the key, or an id that no document had if the key was not
stored. Under this id the document is stored, and all other documents, the indexes and the
entities are as before. -/
theorem set_changes_one_document (store : Store) {state : store.State}
    (attainable : store.Attainable state) (service : Service) (key : String) (v : Json)
    (faults : Faults) :
    (∀ e after, (service.set key v).run store.backend faults state = (.error e, after) →
      after = state) ∧
    ∀ s after, (service.set key v).run store.backend faults state = (.ok s, after) →
      s.key = key ∧
      ((∃ d ∈ store.documents state, d.id = s.id ∧ d.key = key ∧
          ∀ e ∈ store.documents state, e.key = key → s.id ≤ e.id) ∨
        ((∀ d ∈ store.documents state, d.key ≠ key) ∧
          ∀ d ∈ store.documents state, d.id ≠ s.id)) ∧
      ⟨s.id, key, store.readBack s.value⟩ ∈ store.documents after ∧
      (store.documents after).filter (·.id != s.id)
        = (store.documents state).filter (·.id != s.id) ∧
      store.indexes after = store.indexes state ∧
      store.entities after = store.entities state := by
  have orderly := attainable.orderly
  have hends := savesOne_set orderly service key v faults
  have horderly := ends_of_kept Store.orderly_answer (service.set key v) orderly faults
  constructor
  · intro e after hrun
    rw [hrun] at hends
    exact hends
  · intro s after hrun
    rw [hrun] at hends horderly
    obtain ⟨hplace, w, hsaves⟩ := hends
    refine ⟨hsaves.key, ?_, ?_, hsaves.others orderly.ids horderly.ids, hsaves.indexes,
      hsaves.entities⟩
    · unfold Document.TakesPlace at hplace
      cases hfound : find? key (store.documents state) with
      | none =>
          rw [hfound] at hplace
          exact Or.inr ⟨Document.find?_eq_none_iff.1 hfound, fun d hd => (hplace d hd).symm⟩
      | some d =>
          rw [hfound] at hplace
          obtain ⟨hd, hdkey, hle⟩ := Document.find?_spec hfound
          refine Or.inl ⟨d, hd, hplace.symm, hdkey, ?_⟩
          rw [hplace]
          exact hle
    · refine (hsaves.documents _).2 (Or.inl ?_)
      rw [hsaves.value]

/-- The core settings, without plugins. -/
def coreService : Service := ⟨(Registry.registerCore ⟨Catalog.empty, none⟩ Registry.empty).2.freeze⟩

/-- A core key that takes any value. -/
def passwordKey : String := "core.smtp.password"

/-- A table in which another program keeps all values apart. -/
def valuesApart : Table :=
  ⟨[⟨1, passwordKey, some "null"⟩, ⟨2, "a", some "true"⟩], 2, [⟨"x", [.value], true⟩], [], false⟩

theorem attainable_valuesApart : Store.table.Attainable valuesApart := by
  have saved : Store.table.Attainable { valuesApart with indexes := [] } :=
    .answer (.saveSetting ⟨none, "a", .bool true⟩)
      (.answer (.saveSetting ⟨none, passwordKey, .null⟩) .empty)
  have created : Table.createDirectly? { valuesApart with indexes := [] } "x" ["value"] true
      = some valuesApart := rfl
  exact .direct saved (.create created)

/-- A value that is stored is refused, and another one is stored. -/
theorem set_changes_one_document_of_valuesApart :
    (coreService.set passwordKey (.bool true)).run Table.backend Faults.none valuesApart
      = (.error .database, valuesApart) ∧
    ∃ after, (coreService.set passwordKey (.bool false)).run Table.backend Faults.none valuesApart
        = (.ok ⟨1, passwordKey, .bool false⟩, after) ∧
      after.documents.filter (·.id != 1) = [⟨2, "a", .bool true⟩] := by
  have hset := fun v => set_changes_one_document .table attainable_valuesApart coreService
    passwordKey v Faults.none
  constructor
  · exact Prod.ext rfl ((hset (.bool true)).1 _ _ rfl)
  · obtain ⟨-, -, -, hothers, -⟩ := (hset (.bool false)).2 ⟨1, passwordKey, .bool false⟩ _ rfl
    exact ⟨_, rfl, hothers⟩

/-! ## Unsetting -/

/-- Whatever calls fail, some of the documents are removed, and all of them if there is no
error. -/
theorem ends_removeAll (state : store.State) (docs : List Document) :
    Ends store.backend (fun outcome after => store.indexes after = store.indexes state ∧
      store.entities after = store.entities state ∧ ∃ gone, gone ⊆ docs.map (·.id) ∧
        store.documents after = (store.documents state).filter (fun d => decide (d.id ∉ gone)) ∧
        (outcome = .ok () → gone = docs.map (·.id)))
      (removeAll docs) state := by
  induction docs generalizing state with
  | nil =>
      exact ends_done.2 ⟨rfl, rfl, [], List.Subset.refl _, (filter_not_mem_nil _).symm,
        fun _ => rfl⟩
  | cons first rest ih =>
      -- A removal that fails is the last one.
      refine ends_ask.2 ⟨ends_done.2 ⟨rfl, rfl, [], List.nil_subset _,
        (filter_not_mem_nil _).symm, fun h => by cases h⟩, ?_⟩
      obtain ⟨next, hanswer, hdocs, hindexes⟩ := Store.answer_remove store state first.id
      have hentities := Store.entities_remove store state first.id
      rw [hanswer] at hentities ⊢
      refine Ends.imp (ih next) ?_
      rintro outcome after ⟨hindexes', hentities', gone, hgone, hdocs', hall⟩
      refine ⟨hindexes'.trans hindexes, hentities'.trans hentities, first.id :: gone,
        List.cons_subset_cons _ hgone, ?_, fun hok => ?_⟩
      · rw [hdocs', hdocs, filter_not_mem_cons]
      · rw [hall hok, List.map_cons]

/-- If no call fails, there is no error. -/
theorem run_none_removeAll (state : store.State) (docs : List Document) :
    ((removeAll docs).run store.backend Faults.none state).1 = .ok () := by
  induction docs generalizing state with
  | nil => rfl
  | cons first rest ih =>
      obtain ⟨next, hanswer, -⟩ := Store.answer_remove store state first.id
      rw [removeAll, call, ask_bind, run_none_ask, hanswer]
      exact ih next

/-- Documents of the key may be gone; everything else is as it was. -/
structure Unsets (store : Store) (key : String) (before after : store.State) : Prop where
  documents : (store.documents after).Sublist (store.documents before)
  others : (store.documents after).filter (·.key != key)
    = (store.documents before).filter (·.key != key)
  indexes : store.indexes after = store.indexes before
  entities : store.entities after = store.entities before

/-- Whatever calls fail, only documents of the key are removed, and all of them if there is no
error. -/
theorem ends_unset (orderly : store.Orderly state) (key : String) :
    Ends store.backend (fun outcome after => Unsets store key state after ∧
      (outcome = .ok () → ∀ d ∈ store.documents after, d.key ≠ key))
      (unset key) state := by
  rw [unset]
  refine ends_ask.2 ⟨ends_done.2 ⟨⟨List.Sublist.refl _, rfl, rfl, rfl⟩, fun h => by cases h⟩, ?_⟩
  rw [Store.answer_listSettings]
  refine Ends.imp (ends_removeAll state _) ?_
  rintro outcome after ⟨hindexes, hentities, gone, hgone, hdocs, hall⟩
  refine ⟨⟨?_, ?_, hindexes, hentities⟩, fun hok d hd hkey => ?_⟩
  · rw [hdocs]
    exact List.filter_sublist
  · rw [hdocs, List.filter_filter]
    refine List.filter_congr fun d hd => ?_
    by_cases hkey : d.key = key
    · simp [hkey]
    · -- Only the ids of listed documents are removed, and an id tells the document.
      have hkept : d.id ∉ gone := fun h =>
        hkey ((Document.mem_ids_list_key orderly.ids hd).1 (hgone h))
      simp [hkept]
  · rw [hdocs, hall hok, List.mem_filter, decide_eq_true_eq] at hd
    exact hd.2 ((Document.mem_ids_list_key orderly.ids hd.1).2 hkey)

theorem run_none_unset_ok (state : store.State) (key : String) :
    ((unset key).run store.backend Faults.none state).1 = .ok () := by
  rw [unset, call, ask_bind, run_none_ask, Store.answer_listSettings]
  exact run_none_removeAll state _

/-- If no call fails, the documents of the key are removed and nothing else. -/
theorem run_none_unset (sound : store.Sound state) (key : String) :
    ∃ after, (unset key).run store.backend Faults.none state = (.ok (), after) ∧
      store.Sound after ∧ store.entity? after = store.entity? state ∧
      store.indexes after = store.indexes state ∧
      (store.documents after).Sublist (store.documents state) ∧
      ∀ e, e ∈ store.documents after ↔ e ∈ store.documents state ∧ e.key ≠ key := by
  have hok := run_none_unset_ok state key
  have hsound := ends_of_kept Store.sound_answer (unset key) sound Faults.none
  obtain ⟨hunsets, hgone⟩ := ends_unset sound.orderly key Faults.none
  refine ⟨_, Prod.ext hok rfl, hsound, Store.entity?_congr hunsets.entities, hunsets.indexes,
    hunsets.documents, fun e => ?_⟩
  have hothers := congrArg (e ∈ ·) hunsets.others
  simp only [List.mem_filter, bne_iff_ne, eq_iff_iff] at hothers
  rw [← hothers]
  exact ⟨fun he => ⟨he, hgone hok e he⟩, And.left⟩

/-- A call that finds a document goes on with what is found. -/
theorem run_none_find (store : Store) (state : store.State) (key : String) {α : Type}
    (next : Option Document → Session α) :
    ((call (.findSetting key) : Session (Option Document)) >>= next).run store.backend Faults.none
        state
      = (next (find? key (store.documents state))).run store.backend Faults.none state := by
  rw [run_none_bind, call, run_none_ask, Store.answer_findSetting, run_done]

theorem default?_eq (service : Service) (key : String) :
    service.default? key = (service.registry.staticDefault? key <|>
      (service.registry.handler? key).bind Handler.default?) := by
  rw [default?]
  cases service.registry.staticDefault? key <;> rfl

/-- Unsetting removes all documents of its key and nothing else. Over either store, from every
attainable state and whichever calls fail: no document is changed, all documents of other keys,
the indexes and the entities are as before. If there is no error, no document of the key is left
and the key has its default: the registered one, else that of its handler, else null. There is no
error if no call fails. -/
theorem unset_removes_key (store : Store) {state : store.State}
    (attainable : store.Attainable state) (service : Service) (key : String) (faults : Faults) :
    let ended := (unset key).run store.backend faults state
    (store.documents ended.2).Sublist (store.documents state) ∧
    (store.documents ended.2).filter (·.key != key)
      = (store.documents state).filter (·.key != key) ∧
    store.indexes ended.2 = store.indexes state ∧
    store.entities ended.2 = store.entities state ∧
    (ended.1 = .ok () → (∀ d ∈ store.documents ended.2, d.key ≠ key) ∧
      (service.get key).run store.backend Faults.none ended.2
        = (.ok ((service.registry.staticDefault? key <|>
            (service.registry.handler? key).bind Handler.default?).getD .null), ended.2)) ∧
    ((unset key).run store.backend Faults.none state).1 = .ok () := by
  intro ended
  obtain ⟨hunsets, hgone⟩ := ends_unset attainable.orderly key faults
  refine ⟨hunsets.documents, hunsets.others, hunsets.indexes, hunsets.entities, fun hok => ?_,
    run_none_unset_ok state key⟩
  have hnone := hgone hok
  refine ⟨hnone, ?_⟩
  rw [get, run_none_find, Document.find?_eq_none_iff.2 hnone, default?_eq]
  rfl

/-- A key that is stored twice, with another key between. -/
def storedTwice : List Request :=
  [.saveSetting ⟨none, passwordKey, .null⟩, .saveSetting ⟨none, "a", .bool true⟩,
    .saveSetting ⟨none, passwordKey, .bool false⟩]

/-- Both documents are removed, and the key has its default again. If the second removal fails,
the second document is left. -/
theorem unset_removes_key_of_storedTwice :
    Store.table.Attainable (Table.backend.after storedTwice Table.empty) ∧
    (∃ after, (unset passwordKey).run Table.backend Faults.none
        (Table.backend.after storedTwice Table.empty) = (.ok (), after) ∧
      (∀ d ∈ after.documents, d.key ≠ passwordKey) ∧
      after.documents.filter (·.key != passwordKey) = [⟨2, "a", .bool true⟩] ∧
      (coreService.get passwordKey).run Table.backend Faults.none after
        = (.ok (.string ""), after)) ∧
    ∃ after, (unset passwordKey).run Table.backend (fun n _ => n == 2)
        (Table.backend.after storedTwice Table.empty) = (.error .database, after) ∧
      after.documents.map (·.id) = [2, 3] ∧
      after.documents.Sublist (Table.backend.after storedTwice Table.empty).documents := by
  have attainable : Store.table.Attainable (Table.backend.after storedTwice Table.empty) :=
    (Store.Reachable.empty.after storedTwice).attainable
  have hunset := unset_removes_key .table attainable coreService passwordKey
  obtain ⟨-, hothers, -, -, hok, -⟩ := hunset Faults.none
  obtain ⟨hnone, hget⟩ := hok rfl
  refine ⟨attainable, ⟨_, rfl, hnone, hothers, hget⟩, _, rfl, rfl, ?_⟩
  exact (hunset fun n _ => n == 2).1

end Service

end SettingStore
