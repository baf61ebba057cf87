import SettingStore.Proofs.Core.Admits
import SettingStore.Proofs.Service.Call
import SettingStore.Proofs.Service.Frame
import SettingStore.Proofs.Store.Mirror

set_option autoImplicit false

/-! # Stored values are admitted

Over a store that only a service has written to, every document has a key with a handler, and
the value of a core key is one that `CoreKey.Admits` (`stored_values_admitted`). The invariant
`Lawful` says this of a state. Every call but `set` only takes documents away (`Call.takesAway`),
`set` saves what the handler has answered (`lawful_set`), and entities are never removed.
-/

namespace SettingStore

open Session
open Document (find?)

/-! ## Calls that take documents away -/

/-- The request adds neither a document nor an entity. -/
def Request.TakesAway : Request → Prop
  | .saveSetting _ => False
  | .createEntity _ => False
  | _ => True

namespace Service

theorem looksUp_takesAway {α : Type} {s : Session α} (h : s.LooksUp) :
    s.Asks Request.TakesAway := by
  induction s with
  | done outcome => trivial
  | ask request resume ih =>
      cases request with
      | readEntity kind id => exact ⟨trivial, fun answer => ih answer (h.2 answer)⟩
      | _ => exact h.elim

theorem get_takesAway (service : Service) (key : String) :
    (service.get key).Asks Request.TakesAway := by
  refine ⟨trivial, fun answer => ?_⟩
  cases answer with
  | error e => trivial
  | ok found => cases found <;> trivial

theorem removeAll_takesAway (docs : List Document) : (removeAll docs).Asks Request.TakesAway := by
  induction docs with
  | nil => trivial
  | cons d rest ih =>
      refine ⟨trivial, fun answer => ?_⟩
      cases answer with
      | error e => trivial
      | ok _ => exact ih

theorem removeExtra_takesAway (ids : List Int) : (removeExtra ids).Asks Request.TakesAway := by
  induction ids with
  | nil => trivial
  | cons id rest ih => exact ⟨trivial, fun _ => ih⟩

theorem dropPlain_takesAway (indexes : List Index) :
    (dropPlain indexes).Asks Request.TakesAway := by
  induction indexes with
  | nil => trivial
  | cons index rest ih =>
      rw [dropPlain]
      split
      · exact ⟨trivial, fun _ => ih⟩
      · exact ih

theorem reconnect_takesAway : reconnect.Asks Request.TakesAway := by
  rw [reconnect_eq]
  refine ⟨trivial, fun answer => ?_⟩
  dsimp only
  split
  · trivial
  · refine (dropPlain_takesAway _).bind fun _ => ⟨trivial, fun answer => ?_⟩
    cases answer with
    | error e => trivial
    | ok groups =>
        show (removeDuplicates groups >>= fun _ => call (.createIndex keyField true)).Asks _
        rw [removeDuplicates_eq]
        exact (removeExtra_takesAway _).bind fun _ => ⟨trivial, fun _ => trivial⟩

end Service

/-- Every call but `set` only takes documents away. -/
theorem Call.takesAway (service : Service) {call : Call} (h : ∀ key v, call ≠ .set key v) :
    (call.session service).Asks Request.TakesAway := by
  have value : ∀ {α : Type} {next : Json → Session α} (key : String),
      (∀ v, ∃ outcome, next v = .done outcome) →
        (service.get key >>= next).Asks Request.TakesAway := by
    intro α next key hnext
    refine (service.get_takesAway key).bind fun v => ?_
    obtain ⟨outcome, hv⟩ := hnext v
    rw [hv]
    trivial
  cases call with
  | set key v => exact absurd rfl (h key v)
  | connect => exact Service.reconnect_takesAway.bind fun _ => trivial
  | reconnect => exact Service.reconnect_takesAway
  | get key => exact service.get_takesAway key
  | getOr key otherwise =>
      refine ⟨trivial, fun answer => ?_⟩
      cases answer with
      | error e => trivial
      | ok found => cases found <;> trivial
  | getString key => exact value key fun v => by cases v <;> exact ⟨_, rfl⟩
  | getInt key =>
      refine value key fun v => ?_
      cases v with
      | null => exact ⟨_, rfl⟩
      | _ =>
          dsimp only
          split <;> exact ⟨_, rfl⟩
  | getBool key => exact value key fun v => by cases v <;> exact ⟨_, rfl⟩
  | defaultValue key => trivial
  | unset key =>
      refine ⟨trivial, fun answer => ?_⟩
      cases answer with
      | error e => trivial
      | ok docs => exact Service.removeAll_takesAway docs
  | validate s => exact Service.looksUp_takesAway (service.looksUp_validate s)
  | list start => exact ⟨trivial, fun _ => trivial⟩

namespace Store

variable {store : Store} {state : store.State}

/-- Which entities exist in a state. -/
def Exists (store : Store) (state : store.State) : Existing :=
  fun kind id => (store.entity? state kind id).isSome = true

/-- A request that takes away leaves no document that was not there. -/
theorem documents_takesAway {request : Request} (h : request.TakesAway) :
    store.documents (store.backend.answer state request).2 ⊆ store.documents state := by
  cases request with
  | saveSetting s => exact h.elim
  | createEntity entity => exact h.elim
  | removeSetting id =>
      obtain ⟨state', hanswer, hdocs, -⟩ := answer_remove store state id
      rw [hanswer, hdocs]
      exact List.filter_subset_self _
  | dropIndex name =>
      rw [documents_dropIndex]
      exact List.Subset.refl _
  | createIndex field unique =>
      rw [(documents_createIndex store state field unique).1]
      exact List.Subset.refl _
  | _ => cases store <;> exact List.Subset.refl _

end Store

/-! ## The invariant -/

namespace Service

variable {service : Service} {deployment : Deployment} {store : Store} {state after : store.State}

/-- Every document has a key with a handler, and for core keys a value that the rule of the key
may have answered. -/
structure Lawful (service : Service) (deployment : Deployment) (store : Store)
    (state : store.State) : Prop where
  orderly : store.Orderly state
  known : ∀ d ∈ store.documents state, (service.registry.handler? d.key).isSome = true
  settled : ∀ d ∈ store.documents state, ∀ key : CoreKey, d.key = key.name →
    key.rule.Settled deployment (store.Exists state) d.value

/-- Fewer documents and more entities are as lawful. -/
theorem Lawful.of_subset (lawful : Lawful service deployment store state)
    (orderly : store.Orderly after) (documents : store.documents after ⊆ store.documents state)
    (entities : ∀ kind id, store.Exists state kind id → store.Exists after kind id) :
    Lawful service deployment store after :=
  ⟨orderly, fun d hd => lawful.known d (documents hd),
    fun d hd key hkey => (lawful.settled d (documents hd) key hkey).mono entities⟩

theorem lawful_empty (service : Service) (deployment : Deployment) (store : Store) :
    Lawful service deployment store store.empty := by
  have hnone : store.documents store.empty = [] := by cases store <;> rfl
  refine ⟨Store.Attainable.empty.orderly, fun d hd => ?_, fun d hd => ?_⟩
  all_goals
    rw [hnone] at hd
    exact absurd hd List.not_mem_nil

theorem lawful_takesAway (lawful : Lawful service deployment store state) (request : Request)
    (h : request.TakesAway) :
    Lawful service deployment store (store.backend.answer state request).2 := by
  refine lawful.of_subset (Store.orderly_answer lawful.orderly request)
    (Store.documents_takesAway h) fun kind id hexists => ?_
  have hsame := Store.entity?_answer lawful.orderly request
    fun entity heq => by rw [heq] at h; exact h
  rwa [Store.Exists, hsame]

/-- A created entity adds to those that exist. -/
theorem lawful_createEntity (lawful : Lawful service deployment store state) (entity : Entity) :
    Lawful service deployment store (store.backend.answer state (.createEntity entity)).2 := by
  refine lawful.of_subset (Store.orderly_answer lawful.orderly _) ?_ fun kind id hexists => ?_
  · cases store <;> exact List.Subset.refl _
  · rw [Store.Exists, Store.isSome_entity?_createEntity, hexists, Bool.true_or]

/-! ## Setting -/

section Setting

variable {s : Setting} {w : Json}

/-- Only settings whose key has a handler are accepted. -/
theorem Accepts.known (h : service.Accepts store state s w) :
    (service.registry.handler? s.key).isSome = true := by
  obtain ⟨faults, hrun⟩ := h
  rw [validate] at hrun
  cases hhandler : service.registry.handler? s.key with
  | none =>
      rw [hhandler] at hrun
      cases hrun
  | some handler => rfl

/-- What is accepted for a core key is settled, and it can be stored if the given value can. -/
theorem Accepts.settled {key : CoreKey}
    (registered : service.registry.handler? key.name = some (.core key deployment))
    (hkey : s.key = key.name) (h : service.Accepts store state s w) :
    key.rule.Settled deployment (store.Exists state) w ∧ (s.value.Storable → w.Storable) := by
  obtain ⟨faults, hrun⟩ := h
  obtain ⟨v, hnormal, heq⟩ := normalized_of_validate registered hkey hrun
  have hvalue : w = v := congrArg Setting.value heq
  rw [← hvalue] at hnormal
  exact (Rule.yields_normalize (Store.knows store state) deployment (Rule.proper_core key)
    s.value faults).2 w hnormal

/-- A setting that was accepted is saved lawfully. -/
theorem lawful_saveSetting
    (registered : ∀ key : CoreKey,
      service.registry.handler? key.name = some (.core key deployment))
    (lawful : Lawful service deployment store state) (h : service.Accepts store state s w)
    (storable : ∀ key : CoreKey, s.key = key.name → s.value.Storable) :
    Lawful service deployment store
      (store.backend.answer state (.saveSetting { s with value := w })).2 := by
  have horderly := Store.orderly_answer lawful.orderly (.saveSetting { s with value := w })
  have hentities := Store.entity?_answer lawful.orderly (.saveSetting { s with value := w })
    fun _ heq => by cases heq
  have hexists : store.Exists (store.backend.answer state (.saveSetting { s with value := w })).2
      = store.Exists state := by
    unfold Store.Exists
    rw [hentities]
  rcases Store.answer_saveSetting lawful.orderly { s with value := w } with
    hfailed | ⟨saved, after, hanswer, hsaves⟩
  · rw [hfailed]
    exact lawful
  · rw [hanswer] at horderly hexists ⊢
    refine ⟨horderly, fun d hd => ?_, fun d hd key hkey => ?_⟩
    · rcases (hsaves.documents d).1 hd with rfl | ⟨hd, -⟩
      · exact h.known
      · exact lawful.known d hd
    · rw [hexists]
      rcases (hsaves.documents d).1 hd with rfl | ⟨hd, -⟩
      · obtain ⟨hsettled, hstorable⟩ := h.settled (registered key) hkey
        show key.rule.Settled deployment _ (store.readBack w)
        rw [store.readBack_of_storable (hstorable (storable key hkey))]
        exact hsettled
      · exact lawful.settled d hd key hkey

/-- Whatever calls fail, `set` keeps the store lawful. -/
theorem lawful_set
    (registered : ∀ key : CoreKey,
      service.registry.handler? key.name = some (.core key deployment))
    (lawful : Lawful service deployment store state) (key : String) (v : Json)
    (storable : ∀ core : CoreKey, key = core.name → v.Storable) :
    Ends store.backend (fun _ after => Lawful service deployment store after)
      (service.set key v) state :=
  ends_set_of_accepted service key v (fun _ => lawful) fun _ accepted =>
    lawful_saveSetting registered lawful accepted storable

end Setting

/-! ## Runs -/

end Service

/-- What is done to a store: an entity is created in it, or a call is made to the service. -/
inductive Act where
  | create (entity : Entity)
  | call (call : Call)

namespace Service

/-- The state after an act, with the faults that it meets. -/
def perform {σ : Type} (service : Service) (backend : Backend σ) (faults : Faults) (state : σ) :
    Act → σ
  | .create entity => ((call (.createEntity entity)).run backend faults state).2
  | .call call => ((call.session service).run backend faults state).2

/-- The state after acts one after another, each with its own faults. -/
def performAll {σ : Type} (service : Service) (backend : Backend σ) :
    List (Act × Faults) → σ → σ
  | [], state => state
  | (act, faults) :: rest, state =>
      performAll service backend rest (service.perform backend faults state act)

variable {service : Service} {deployment : Deployment} {store : Store} {state : store.State}

/-- Every act keeps the store lawful. -/
theorem lawful_perform
    (registered : ∀ key : CoreKey,
      service.registry.handler? key.name = some (.core key deployment))
    (lawful : Lawful service deployment store state) {act : Act} (faults : Faults)
    (storable : ∀ (key : CoreKey) v, act = .call (.set key.name v) → v.Storable) :
    Lawful service deployment store (service.perform store.backend faults state act) := by
  cases act with
  | create entity =>
      have hends : Ends store.backend (fun _ after => Lawful service deployment store after)
          (Session.call (.createEntity entity)) state :=
        ends_ask.2 ⟨ends_done.2 lawful, ends_done.2 (lawful_createEntity lawful entity)⟩
      exact hends faults
  | call call =>
      by_cases hset : ∃ key v, call = .set key v
      · obtain ⟨key, v, rfl⟩ := hset
        refine lawful_set registered lawful key v (fun core hcore => ?_) faults
        exact storable core v (by rw [hcore])
      · have hother : ∀ key v, call ≠ .set key v := fun key v heq => hset ⟨key, v, heq⟩
        exact (Call.takesAway service hother).ends lawful_takesAway lawful faults

theorem lawful_performAll
    (registered : ∀ key : CoreKey,
      service.registry.handler? key.name = some (.core key deployment))
    (acts : List (Act × Faults))
    (storable : ∀ act ∈ acts, ∀ (key : CoreKey) v, act.1 = .call (.set key.name v) → v.Storable)
    {state : store.State} (lawful : Lawful service deployment store state) :
    Lawful service deployment store (service.performAll store.backend acts state) := by
  induction acts generalizing state with
  | nil => exact lawful
  | cons first rest ih =>
      obtain ⟨hfirst, hrest⟩ := List.forall_mem_cons.1 storable
      exact ih hrest (lawful_perform registered lawful first.2 hfirst)

/-- Stored core settings satisfy their rule. Over either store, from the store without contents
on, whatever entities are created and whatever calls are made to a service with the core
settings registered, whichever requests fail, if the values that core keys are set to can be
stored: every stored document has a key with a handler, and if it is a core key its value is one
that the key admits where the entities of the store exist. -/
theorem stored_values_admitted (store : Store) (service : Service) (deployment : Deployment)
    (registered : ∀ key : CoreKey,
      service.registry.handler? key.name = some (.core key deployment))
    (acts : List (Act × Faults))
    (storable : ∀ act ∈ acts, ∀ (key : CoreKey) v,
      act.1 = .call (.set key.name v) → v.Storable) :
    let after := service.performAll store.backend acts store.empty
    ∀ d ∈ store.documents after,
      (∃ handler, service.registry.handler? d.key = some handler) ∧
      ∀ key : CoreKey, d.key = key.name →
        key.Admits deployment (fun kind id => ∃ entity, store.entity? after kind id = some entity)
          d.value := by
  intro after d hd
  have lawful := lawful_performAll registered acts storable
    (lawful_empty service deployment store)
  refine ⟨Option.isSome_iff_exists.1 (lawful.known d hd), fun key hkey => ?_⟩
  have hsettled := (lawful.settled d hd key hkey).mono
    fun kind id hexists => Option.isSome_iff_exists.1 hexists
  exact hsettled.admits

/-- A group of users. -/
def team : Entity := ⟨.group, ⟨"0123456789abcdef01234567", by decide⟩, "team"⟩

/-- The value of a policy that names a group. -/
def policyFor (group : String) : Json := .object [("groups", .array ([group].map .string))]

/-- The group is created, and then it is named in capital letters. -/
def createAndRefer : List (Act × Faults) :=
  [(.create team, Faults.none), (.call .connect, Faults.none),
    (.call (.set CoreKey.collectionCreatePolicy.name (policyFor " 0123456789ABCDEF01234567")),
      Faults.none)]

theorem storable_policyFor (group : String) : (policyFor group).Storable := by
  refine Json.storable_object_iff.2 ⟨List.pairwise_singleton _ _, fun m hm => ?_⟩
  rw [List.mem_singleton.1 hm]
  refine ⟨Json.storable_strings [group], ?_⟩
  rw [Json.depth_strings]
  decide

/-- The group is stored under its canonical id, and it exists. -/
theorem stored_values_admitted_of_createAndRefer :
    let after := coreService.performAll Memory.backend createAndRefer Memory.empty
    let policy : Json := .object
      [("groups", .array [.string "0123456789abcdef01234567"]), ("open", .bool false)]
    Memory.documents after = [⟨1, CoreKey.collectionCreatePolicy.name, policy⟩] ∧
      CoreKey.collectionCreatePolicy.Admits ⟨Catalog.empty, none⟩
        (fun kind id => ∃ entity, Store.memory.entity? after kind id = some entity) policy := by
  intro after policy
  have hdocs : Memory.documents after = [⟨1, CoreKey.collectionCreatePolicy.name, policy⟩] := rfl
  have hstorable : ∀ act ∈ createAndRefer, ∀ (key : CoreKey) v,
      act.1 = .call (.set key.name v) → v.Storable := by
    intro act hact key v heq
    simp only [createAndRefer, List.mem_cons, List.not_mem_nil, or_false] at hact
    rcases hact with rfl | rfl | rfl
    · cases heq
    · cases heq
    · have hv := (Call.set.inj (Act.call.inj heq)).2
      rw [← hv]
      exact storable_policyFor _
  have hadmitted := stored_values_admitted .memory coreService ⟨Catalog.empty, none⟩
    (fun key => Registry.handler?_of_registerCore rfl key) createAndRefer hstorable
    ⟨1, CoreKey.collectionCreatePolicy.name, policy⟩ (List.mem_singleton.2 rfl)
  exact ⟨hdocs, hadmitted.2 .collectionCreatePolicy rfl⟩

end Service

end SettingStore
