import SettingStore.Proofs.EntityId
import SettingStore.Proofs.Json.Storable
import SettingStore.Proofs.Session.Asked

set_option autoImplicit false

/-! # Members that list ids

A collection policy may list groups and users by values that spell their ids. What becomes of
its members is a relation, `PolicyResolved`: a value is accepted exactly if there are members
that it relates to those of the value, and these are answered (`Session.yields_resolved`,
`Session.run_none_resolved`).
-/

namespace SettingStore

/-- Which entities exist. -/
abbrev Existing := EntityKind → EntityId → Prop

/-- The value spells the id of an entity that exists. -/
def EntityId.Names (exist : EntityId → Prop) (v : Json) (id : EntityId) : Prop :=
  (∃ s, GivenBy v s ∧ Spelled s id) ∧ exist id

namespace EntityId

variable {exist : EntityId → Prop}

/-- The text of an id names the entity. -/
theorem names_text {id : EntityId} (h : exist id) : Names exist (.string id.text) id := by
  have hread : ofText id.text = .ok id := ofText_eq_ok_iff_ofText?.2 (ofText?_text id)
  exact ⟨⟨id.text, .text _, ofText_eq_ok_iff.1 hread⟩, h⟩

theorem exist_of_names {vs : List Json} {ids : List EntityId}
    (h : List.Forall₂ (Names exist) vs ids) : ∀ id ∈ ids, exist id := by
  induction h with
  | nil => exact fun _ hid => absurd hid List.not_mem_nil
  | cons hnames _ ih => exact List.forall_mem_cons.2 ⟨hnames.2, ih⟩

end EntityId

/-- What becomes of members in which those of a name list entities: each entity is listed by the
text of its id. -/
inductive IdsResolved (exist : EntityId → Prop) (name : String) (members : List (String × Json)) :
    List (String × Json) → Prop
  | absent (h : Json.member? name members = none) : IdsResolved exist name members members
  | listed {vs : List Json} {ids : List EntityId}
      (h : Json.member? name members = some (.array vs))
      (names : List.Forall₂ (EntityId.Names exist) vs ids) :
      IdsResolved exist name members (members.map fun m =>
        if m.1 == name then (m.1, .array (ids.map fun id => .string id.text)) else m)

/-- The members with one that says whether the policy is open. One that does not say is
closed. -/
def saidOpen (members : List (String × Json)) : List (String × Json) :=
  if (Json.member? "open" members).isSome then members
  else Json.setMember "open" (.bool false) members

/-- What becomes of the members of a policy. -/
inductive PolicyResolved (exist : Existing) (members : List (String × Json)) :
    List (String × Json) → Prop
  | intro {grouped listed : List (String × Json)}
      (groups : IdsResolved (exist .group) "groups" members grouped)
      (users : IdsResolved (exist .user) "users" grouped listed) :
      PolicyResolved exist members (saidOpen listed)

/-! ## The members afterwards -/

theorem storable_ids (ids : List EntityId) :
    (Json.array (ids.map fun id => .string id.text)).Storable ∧
      (Json.array (ids.map fun id => .string id.text)).depth < Json.maxDepth := by
  have hstrings : ids.map (fun id => Json.string id.text)
      = (ids.map EntityId.text).map Json.string := by
    rw [List.map_map]
    rfl
  rw [hstrings, Json.depth_strings]
  exact ⟨Json.storable_strings _, by decide⟩

theorem storable_false : (Json.bool false).Storable :=
  ⟨trivial, fun _ hx => absurd hx List.not_mem_nil, Nat.zero_le _⟩

namespace IdsResolved

variable {exist : EntityId → Prop} {name : String} {members members' : List (String × Json)}
  (h : IdsResolved exist name members members')
include h

/-- Only members of the name are new. -/
theorem mem_of_ne {m : String × Json} (hm : m ∈ members') (hne : m.1 ≠ name) : m ∈ members := by
  cases h with
  | absent => exact hm
  | listed =>
      rcases Json.mem_of_mem_replaced hm with rfl | ⟨hmem, -⟩
      · exact absurd rfl hne
      · exact hmem

theorem member?_of_ne {other : String} (hne : other ≠ name) :
    Json.member? other members' = Json.member? other members := by
  cases h with
  | absent => rfl
  | listed => exact Json.member?_replaced_of_ne hne _ _

theorem storable (hstorable : (Json.object members).Storable) :
    (Json.object members').Storable := by
  cases h with
  | absent => exact hstorable
  | listed => exact hstorable.replaced (storable_ids _).1 (storable_ids _).2

theorem canonical (hcanonical : (Json.object members).Canonical) :
    (Json.object members').Canonical := by
  cases h with
  | absent => exact hcanonical
  | listed => exact hcanonical.replaced (storable_ids _).1.canonical

end IdsResolved

theorem member?_saidOpen_self (members : List (String × Json)) :
    Json.member? "open" (saidOpen members)
      = some ((Json.member? "open" members).getD (.bool false)) := by
  unfold saidOpen
  cases h : Json.member? "open" members with
  | none => exact Json.member?_setMember_self _ _ _
  | some isOpen => exact h

theorem member?_saidOpen_of_ne {name : String} (h : name ≠ "open")
    (members : List (String × Json)) :
    Json.member? name (saidOpen members) = Json.member? name members := by
  unfold saidOpen
  split
  · rfl
  · exact Json.member?_setMember_of_ne h _ _

namespace PolicyResolved

variable {exist : Existing} {members members' : List (String × Json)}
  (h : PolicyResolved exist members members')
include h

theorem storable (hstorable : (Json.object members).Storable) :
    (Json.object members').Storable := by
  obtain ⟨groups, users⟩ := h
  have hlisted := users.storable (groups.storable hstorable)
  unfold saidOpen
  split
  · exact hlisted
  · exact hlisted.setMember storable_false (by decide)

theorem canonical (hcanonical : (Json.object members).Canonical) :
    (Json.object members').Canonical := by
  obtain ⟨groups, users⟩ := h
  have hlisted := users.canonical (groups.canonical hcanonical)
  unfold saidOpen
  split
  · exact hlisted
  · exact hlisted.setMember trivial

end PolicyResolved

/-! ## Looking entities up -/

namespace Session

theorem stopsAtFaults_loadEntity (kind : EntityKind) (id : EntityId) :
    StopsAtFaults (loadEntity kind id true true) := by
  refine ⟨rfl, fun answer => ?_⟩
  cases answer with
  | error e => trivial
  | ok found => cases found <;> trivial

theorem stopsAtFaults_canonicalIds (kind : EntityKind) (vs : List Json) :
    StopsAtFaults (canonicalIds kind vs) := by
  induction vs with
  | nil => trivial
  | cons v rest ih =>
      have hid : StopsAtFaults (ofExcept (EntityId.ofValue v)) := trivial
      exact hid.bind fun id => (stopsAtFaults_loadEntity kind id).bind fun _ =>
        ih.bind fun others => trivial

theorem stopsAtFaults_resolveIds (kind : EntityKind) (name : String)
    (members : List (String × Json)) : StopsAtFaults (resolveIds kind name members) := by
  rw [resolveIds]
  split
  · trivial
  · exact (stopsAtFaults_canonicalIds kind _).bind fun _ => trivial
  · trivial

theorem stopsAtFaults_collectionPolicy (v : Json) : StopsAtFaults (collectionPolicy v) := by
  rw [collectionPolicy.eq_def]
  split
  · refine (stopsAtFaults_resolveIds .group "groups" _).bind fun grouped => ?_
    refine (stopsAtFaults_resolveIds .user "users" grouped).bind fun listed => ?_
    split <;> trivial
  · trivial

variable {σ : Type} {backend : Backend σ} {state : σ}
  {lookup : EntityKind → EntityId → Option Entity} (knows : backend.Knows state lookup)
include knows

/-! ### What is accepted -/

/-- A required entity exists, if the look-up ends well. -/
theorem yields_loadEntity (kind : EntityKind) (id : EntityId) :
    Yields backend (fun _ => (lookup kind id).isSome = true) (loadEntity kind id true true)
      state := by
  rw [loadEntity]
  refine ends_ask.2 ⟨ends_done.2 ⟨rfl, fun _ h => by cases h⟩, ?_⟩
  rw [knows kind id]
  cases hfound : lookup kind id with
  | none => exact yields_fail _
  | some entity => exact yields_pure rfl

theorem yields_canonicalIds (kind : EntityKind) (vs : List Json) :
    Yields backend (fun ws => ∃ ids : List EntityId,
      List.Forall₂ (EntityId.Names fun id => (lookup kind id).isSome = true) vs ids ∧
        ws = ids.map fun id => .string id.text) (canonicalIds kind vs) state := by
  induction vs with
  | nil => exact yields_pure ⟨[], .nil, rfl⟩
  | cons v rest ih =>
      have hid : Yields backend (fun id => ∃ s, EntityId.GivenBy v s ∧ EntityId.Spelled s id)
          (ofExcept (EntityId.ofValue v)) state :=
        yields_done fun id hread => EntityId.ofValue_eq_ok_iff.1 hread
      refine hid.bind fun id hspelled => (yields_loadEntity knows kind id).bind fun _ hexists =>
        ih.bind fun others hothers => ?_
      obtain ⟨ids, hnames, rfl⟩ := hothers
      exact yields_pure ⟨id :: ids, .cons ⟨hspelled, hexists⟩ hnames, rfl⟩

theorem yields_resolveIds (kind : EntityKind) (name : String) (members : List (String × Json)) :
    Yields backend (IdsResolved (fun id => (lookup kind id).isSome = true) name members)
      (resolveIds kind name members) state := by
  rw [resolveIds]
  split
  · rename_i hnone
    exact yields_pure (.absent hnone)
  · rename_i vs hlisted
    refine (yields_canonicalIds knows kind vs).bind fun ws hws => ?_
    obtain ⟨ids, hnames, rfl⟩ := hws
    exact yields_pure (.listed hlisted hnames)
  · exact yields_fail _

/-- Whichever look-ups fail, what is answered is the value with its members resolved. -/
theorem yields_resolved (v : Json) :
    Yields backend (fun w => ∃ members members', v = .object members ∧ w = .object members' ∧
      PolicyResolved (fun kind id => (lookup kind id).isSome = true) members members')
      (collectionPolicy v) state := by
  rw [collectionPolicy.eq_def]
  split
  · rename_i members
    refine (yields_resolveIds knows .group "groups" members).bind fun grouped hgroups => ?_
    refine (yields_resolveIds knows .user "users" grouped).bind fun listed husers => ?_
    have hresolved : PolicyResolved (fun kind id => (lookup kind id).isSome = true) members
        (saidOpen listed) := .intro hgroups husers
    unfold saidOpen at hresolved
    split
    · rename_i hopen
      rw [if_pos hopen] at hresolved
      exact yields_pure ⟨members, _, rfl, rfl, hresolved⟩
    · rename_i hnone
      rw [if_neg hnone] at hresolved
      exact yields_pure ⟨members, _, rfl, rfl, hresolved⟩
  · exact yields_fail _

/-! ### What is answered -/

/-- Values that name entities are read as the ids of these. -/
theorem run_none_canonicalIds (kind : EntityKind) {vs : List Json} {ids : List EntityId}
    (h : List.Forall₂ (EntityId.Names fun id => (lookup kind id).isSome = true) vs ids) :
    (canonicalIds kind vs).run backend Faults.none state
      = (.ok (ids.map fun id => .string id.text), state) := by
  induction h with
  | nil => rfl
  | @cons v id rest others hnames _ ih =>
      obtain ⟨hspelled, hexists⟩ := hnames
      obtain ⟨entity, hentity⟩ := Option.isSome_iff_exists.1 hexists
      have hload : (loadEntity kind id true true).run backend Faults.none state
          = (.ok (some entity), state) := by
        rw [loadEntity, run_none_bind, call, run_none_ask, knows kind id, hentity]
        rfl
      -- The value is read as an id, the entity is looked up, and then come the other values.
      rw [List.map_cons, canonicalIds, EntityId.ofValue_eq_ok_iff.2 hspelled, run_none_bind]
      show (loadEntity kind id true true >>= _).run backend Faults.none state = _
      rw [run_none_bind, hload]
      dsimp only
      rw [run_none_bind, ih]
      rfl

theorem run_none_resolveIds (kind : EntityKind) {name : String}
    {members members' : List (String × Json)}
    (h : IdsResolved (fun id => (lookup kind id).isSome = true) name members members') :
    (resolveIds kind name members).run backend Faults.none state = (.ok members', state) := by
  rw [resolveIds]
  cases h with
  | absent h =>
      rw [h]
      rfl
  | listed h names =>
      rw [h]
      dsimp only
      rw [run_none_bind, run_none_canonicalIds knows kind names]
      rfl

/-- If no look-up fails, a policy whose members can be resolved is accepted. -/
theorem run_none_resolved {members members' : List (String × Json)}
    (h : PolicyResolved (fun kind id => (lookup kind id).isSome = true) members members') :
    (collectionPolicy (.object members)).run backend Faults.none state
      = (.ok (.object members'), state) := by
  obtain ⟨groups, users⟩ := h
  rw [collectionPolicy, run_none_bind, run_none_resolveIds knows .group groups]
  dsimp only
  rw [run_none_bind, run_none_resolveIds knows .user users]
  dsimp only [saidOpen]
  split <;> rfl

end Session

end SettingStore
