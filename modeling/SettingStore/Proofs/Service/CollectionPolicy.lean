import SettingStore.Proofs.Service.StoredValues

set_option autoImplicit false

/-! # Policies for collections

A policy may list the groups and users that may create collections. It is accepted exactly if
what it lists are spellings of ids of entities that exist, and then it lists the ids themselves
(`collection_policy_lists_entities`). Nothing else in it changes, but that it is closed if it did
not say so.
-/

namespace SettingStore

open Session
open Json (member?)

/-! ## What a policy may list -/

/-- The member of the name, if there is one, is a list in which every value names an entity. -/
def ListsEntities (exist : EntityId → Prop) (name : String) (members : List (String × Json)) :
    Prop :=
  ∀ w, member? name members = some w →
    ∃ vs, w = .array vs ∧ ∀ v ∈ vs, ∃ id, EntityId.Names exist v id

/-- A list of values that name entities becomes the list of the ids of these, one for each and in
the same order. -/
inductive IdsBecome (exist : EntityId → Prop) : Option Json → Option Json → Prop
  | absent : IdsBecome exist none none
  | listed {vs : List Json} {ids : List EntityId}
      (names : List.Forall₂ (EntityId.Names exist) vs ids) :
      IdsBecome exist (some (.array vs)) (some (.array (ids.map fun id => .string id.text)))

/-- What the members of a policy become. -/
structure PolicyBecomes (exist : Existing) (members members' : List (String × Json)) : Prop where
  groups : IdsBecome (exist .group) (member? "groups" members) (member? "groups" members')
  users : IdsBecome (exist .user) (member? "users" members) (member? "users" members')
  isOpen : member? "open" members' = some ((member? "open" members).getD (.bool false))
  others : ∀ name, name ≠ "groups" → name ≠ "users" → name ≠ "open" →
    member? name members' = member? name members
  canonical : (Json.object members).Canonical → (Json.object members').Canonical

/-! ## Members that can be resolved -/

section Resolving

variable {name : String} {members members' : List (String × Json)}

theorem exists_forall₂_names_iff {exist : EntityId → Prop} {vs : List Json} :
    (∃ ids, List.Forall₂ (EntityId.Names exist) vs ids) ↔
      ∀ v ∈ vs, ∃ id, EntityId.Names exist v id := by
  induction vs with
  | nil => exact ⟨fun _ v hv => absurd hv List.not_mem_nil, fun _ => ⟨[], .nil⟩⟩
  | cons v rest ih =>
      rw [List.forall_mem_cons, ← ih]
      constructor
      · rintro ⟨ids, hids⟩
        cases hids with
        | cons hid hrest => exact ⟨⟨_, hid⟩, _, hrest⟩
      · rintro ⟨⟨id, hid⟩, ids, hrest⟩
        exact ⟨id :: ids, .cons hid hrest⟩

theorem exists_idsResolved_iff {exist : EntityId → Prop} :
    (∃ members', IdsResolved exist name members members') ↔ ListsEntities exist name members := by
  unfold ListsEntities
  constructor
  · rintro ⟨members', h⟩ w hw
    cases h with
    | absent hnone =>
        rw [hnone] at hw
        cases hw
    | @listed vs ids hlisted hnames =>
        rw [hlisted] at hw
        cases hw
        exact ⟨vs, rfl, exists_forall₂_names_iff.1 ⟨ids, hnames⟩⟩
  · intro h
    cases hmember : member? name members with
    | none => exact ⟨members, .absent hmember⟩
    | some w =>
        obtain ⟨vs, rfl, hnamed⟩ := h w hmember
        obtain ⟨ids, hnames⟩ := exists_forall₂_names_iff.2 hnamed
        exact ⟨_, .listed hmember hnames⟩

/-- Resolving the groups does not touch the users. -/
theorem exists_policyResolved_iff {exist : Existing} :
    (∃ members', PolicyResolved exist members members') ↔
      ListsEntities (exist .group) "groups" members ∧
        ListsEntities (exist .user) "users" members := by
  have husers : ∀ grouped, IdsResolved (exist .group) "groups" members grouped →
      ((∃ listed, IdsResolved (exist .user) "users" grouped listed) ↔
        ListsEntities (exist .user) "users" members) := by
    intro grouped hgroups
    unfold ListsEntities
    rw [exists_idsResolved_iff, ← hgroups.member?_of_ne (by decide)]
    rfl
  constructor
  · rintro ⟨members', groups, users⟩
    exact ⟨exists_idsResolved_iff.1 ⟨_, groups⟩, (husers _ groups).1 ⟨_, users⟩⟩
  · rintro ⟨hgroups, hlisted⟩
    obtain ⟨grouped, groups⟩ := exists_idsResolved_iff.2 hgroups
    obtain ⟨listed, users⟩ := (husers _ groups).2 hlisted
    exact ⟨_, .intro groups users⟩

theorem IdsResolved.becomes {exist : EntityId → Prop}
    (h : IdsResolved exist name members members') :
    IdsBecome exist (member? name members) (member? name members') := by
  cases h with
  | absent hnone =>
      rw [hnone]
      exact .absent
  | listed hlisted hnames =>
      rw [Json.member?_replaced_self, hlisted]
      exact .listed hnames

theorem PolicyResolved.becomes {exist : Existing} (h : PolicyResolved exist members members') :
    PolicyBecomes exist members members' := by
  have hcanonical := h.canonical
  obtain ⟨groups, users⟩ := h
  -- Each of the three steps leaves what is found under other names.
  refine ⟨?_, ?_, ?_, fun name hgroups husers hopen => ?_, hcanonical⟩
  · rw [member?_saidOpen_of_ne (by decide), users.member?_of_ne (by decide)]
    exact groups.becomes
  · rw [member?_saidOpen_of_ne (by decide), ← groups.member?_of_ne (by decide)]
    exact users.becomes
  · rw [member?_saidOpen_self, users.member?_of_ne (by decide),
      groups.member?_of_ne (by decide)]
  · rw [member?_saidOpen_of_ne hopen, users.member?_of_ne husers, groups.member?_of_ne hgroups]

end Resolving

/-! ## Validating a policy -/

namespace Service

section Validating

variable {σ : Type} {backend : Backend σ} {state : σ}
  {lookup : EntityKind → EntityId → Option Entity} (knows : backend.Knows state lookup)
  {service : Service} {deployment : Deployment}
  (registered : service.registry.handler? CoreKey.collectionCreatePolicy.name
    = some (.core .collectionCreatePolicy deployment)) (id : Option Int) (v : Json)
include registered

theorem validate_policy :
    service.validate ⟨id, CoreKey.collectionCreatePolicy.name, v⟩
      = collectionPolicy v >>= fun w =>
          pure ⟨id, CoreKey.collectionCreatePolicy.name, w⟩ :=
  validate_core registered rfl

theorem stopsAtFaults_validate_policy :
    (service.validate ⟨id, CoreKey.collectionCreatePolicy.name, v⟩).StopsAtFaults := by
  rw [validate_policy registered]
  exact (stopsAtFaults_collectionPolicy v).bind fun _ => trivial

include knows

/-- What is answered is a policy whose members were resolved. -/
theorem yields_validate_policy :
    Yields backend (fun s => ∃ members members', v = .object members ∧
        s = ⟨id, CoreKey.collectionCreatePolicy.name, .object members'⟩ ∧
        PolicyResolved (fun kind id => (lookup kind id).isSome = true) members members')
      (service.validate ⟨id, CoreKey.collectionCreatePolicy.name, v⟩) state := by
  rw [validate_policy registered]
  refine (yields_resolved knows v).bind fun w hw => ?_
  obtain ⟨members, members', hv, rfl, hresolved⟩ := hw
  exact yields_pure ⟨members, members', hv, rfl, hresolved⟩

theorem run_none_validate_policy {members members' : List (String × Json)}
    (h : PolicyResolved (fun kind id => (lookup kind id).isSome = true) members members') :
    (service.validate ⟨id, CoreKey.collectionCreatePolicy.name, .object members⟩).run backend
        Faults.none state
      = (.ok ⟨id, CoreKey.collectionCreatePolicy.name, .object members'⟩, state) := by
  rw [validate_policy registered, run_none_bind, run_none_resolved knows h]
  rfl

end Validating

/-- A policy for collections is accepted exactly if it lists entities that exist. Over every store
in which entities can be looked up: if no look-up fails, a value is accepted exactly if it is an
object whose members `groups` and `users` are missing or lists of values that name a group or a
user; each list becomes the list of their ids, a policy that does not say whether it is open is
closed, and the other members stay. The store stays as it is, nothing but entities is asked for,
and if one of these look-ups fails, its fault is the outcome. -/
theorem collection_policy_lists_entities {σ : Type} {backend : Backend σ} {state : σ}
    {lookup : EntityKind → EntityId → Option Entity} (knows : backend.Knows state lookup)
    {service : Service} {deployment : Deployment}
    (registered : service.registry.handler? CoreKey.collectionCreatePolicy.name
      = some (.core .collectionCreatePolicy deployment)) (id : Option Int) (v : Json) :
    let exist : Existing := fun kind id => (lookup kind id).isSome = true
    let validating := service.validate ⟨id, CoreKey.collectionCreatePolicy.name, v⟩
    ((∃ s, validating.run backend Faults.none state = (.ok s, state)) ↔
      ∃ members, v = .object members ∧ ListsEntities (exist .group) "groups" members ∧
        ListsEntities (exist .user) "users" members) ∧
    (∀ s, (validating.run backend Faults.none state).1 = .ok s →
      ∃ members members', v = .object members ∧
        s = ⟨id, CoreKey.collectionCreatePolicy.name, .object members'⟩ ∧
        PolicyBecomes exist members members') ∧
    (∀ request ∈ validating.asked backend state, ∃ kind id, request = .readEntity kind id) ∧
    ∀ faults : Faults, (validating.run backend faults state).2 = state ∧
      (faults.Strike (validating.asked backend state) →
        (validating.run backend faults state).1 = .error .database) ∧
      (¬ faults.Strike (validating.asked backend state) →
        validating.run backend faults state = validating.run backend Faults.none state) := by
  intro exist validating
  have hyields := yields_validate_policy knows registered id v
  refine ⟨⟨?_, ?_⟩, fun s hs => ?_, fun request hrequest => ?_, fun faults => ⟨?_, ?_, ?_⟩⟩
  · rintro ⟨s, hs⟩
    obtain ⟨members, members', hv, -, hresolved⟩ :=
      (hyields Faults.none).2 s (congrArg Prod.fst hs)
    exact ⟨members, hv, exists_policyResolved_iff.1 ⟨members', hresolved⟩⟩
  · rintro ⟨members, rfl, hlists⟩
    obtain ⟨members', hresolved⟩ := exists_policyResolved_iff.2 hlists
    exact ⟨_, run_none_validate_policy knows registered id hresolved⟩
  · obtain ⟨members, members', hv, hs', hresolved⟩ := (hyields Faults.none).2 s hs
    exact ⟨members, members', hv, hs', hresolved.becomes⟩
  · exact (looksUp_validate service _).asked hrequest
  · exact (hyields faults).1
  · exact (stopsAtFaults_validate_policy registered id v).outcome
  · exact run_eq_of_not_strike validating

/-- A group that is named twice, in two forms. As a user it does not exist. -/
theorem collection_policy_lists_entities_of_team :
    let state := (Memory.backend.answer Memory.empty (.createEntity team)).2
    let exist : Existing := fun kind id => (Store.memory.entity? state kind id).isSome = true
    let forms : Json := .array
      [.string " 0123456789ABCDEF01234567", .object [("$oid", .string "0123456789abcdef01234567")]]
    let listed : Json := .array
      [.string "0123456789abcdef01234567", .string "0123456789abcdef01234567"]
    let after := [("groups", listed), ("note", .null), ("open", .bool false)]
    let validating := fun members => coreService.validate
      ⟨none, CoreKey.collectionCreatePolicy.name, .object members⟩
    (validating [("groups", forms), ("note", .null)]).run Memory.backend Faults.none state
        = (.ok ⟨none, CoreKey.collectionCreatePolicy.name, .object after⟩, state) ∧
      PolicyBecomes exist [("groups", forms), ("note", .null)] after ∧
      ((validating [("groups", forms), ("note", .null)]).run Memory.backend
        (Faults.ofKinds [.readEntity]) state).1 = .error .database ∧
      ¬ ∃ s, (validating [("users", forms)]).run Memory.backend Faults.none state
        = (.ok s, state) := by
  intro state exist forms listed after validating
  have hknows : Memory.backend.Knows state (Store.memory.entity? state) := Store.knows .memory state
  have hregistered : coreService.registry.handler? CoreKey.collectionCreatePolicy.name
      = some (.core .collectionCreatePolicy ⟨Catalog.empty, none⟩) :=
    Registry.handler?_of_registerCore rfl .collectionCreatePolicy
  have haccepted : (validating [("groups", forms), ("note", .null)]).run Memory.backend
      Faults.none state
        = (.ok ⟨none, CoreKey.collectionCreatePolicy.name, .object after⟩, state) := by
    dsimp only [validating, after, forms, listed, state]
    rfl
  refine ⟨haccepted, ?_, ?_, ?_⟩
  · obtain ⟨-, hbecomes, -⟩ := collection_policy_lists_entities hknows hregistered none
      (.object [("groups", forms), ("note", .null)])
    obtain ⟨members, members', hv, hs, hpolicy⟩ := hbecomes _ (congrArg Prod.fst haccepted)
    cases hv
    cases hs
    exact hpolicy
  · obtain ⟨-, -, -, hfaults⟩ := collection_policy_lists_entities hknows hregistered none
      (.object [("groups", forms), ("note", .null)])
    exact (hfaults _).2.1 ⟨0, .readEntity .group team.id, by rfl, by rfl⟩
  · obtain ⟨haccepts, -⟩ := collection_policy_lists_entities hknows hregistered none
      (.object [("users", forms)])
    rw [haccepts]
    rintro ⟨members, hv, -, husers⟩
    cases hv
    obtain ⟨vs, hforms, hnamed⟩ := husers _ rfl
    obtain rfl := Json.array.inj hforms
    obtain ⟨id, -, hexists⟩ := hnamed _ List.mem_cons_self
    cases hexists

end Service

end SettingStore
