import Mathlib.Data.List.Induction
import SettingStore.Core.Rule
import SettingStore.Proofs.Session.Ends
import SettingStore.Proofs.Store.Either

set_option autoImplicit false

/-! # Entities that are read back

Callers create users and groups and look them up again, and spell the ids as they come. The id
in its canonical form and the kind say which entity is meant, so that a user and a group do not
get into each other's way whatever their ids. Where several entities were created under one kind
and id, the table shows the last of them; the store in memory still shows the first one
(`entity_read_back`).
-/

namespace SettingStore

/-- The entity is the one of a kind and an id. -/
def Entity.isOf (kind : EntityKind) (id : EntityId) (e : Entity) : Bool :=
  e.kind == kind && e.id == id

theorem Entity.isOf_iff {kind : EntityKind} {id : EntityId} {e : Entity} :
    e.isOf kind id = true ↔ e.kind = kind ∧ e.id = id := by
  rw [isOf, Bool.and_eq_true, beq_iff_eq, beq_iff_eq]

/-! ## Calls -/

/-- A call from a caller who spells ids as they come: to create an entity, or to do something
else. -/
inductive EntityCall where
  | create (kind : EntityKind) (spelled name : String)
  | other (request : Request)

namespace EntityCall

/-- The request that a call makes; an id that is not accepted makes none. -/
def request? : EntityCall → Option Request
  | .create kind spelled name =>
      (EntityId.ofText? spelled).map fun id => .createEntity ⟨kind, id, name⟩
  | .other request => some request

/-- The requests that some calls make. -/
def requests (calls : List EntityCall) : List Request := calls.filterMap request?

/-- Read an entity under an id as it is spelled. -/
def read (kind : EntityKind) (spelled : String) : Session (Option Entity) :=
  Session.ofExcept (EntityId.ofText spelled) >>= fun id => Session.call (.readEntity kind id)

/-- Look up an entity under an id as it is spelled. -/
def load (kind : EntityKind) (spelled : String) (force required : Bool) :
    Session (Option Entity) :=
  Session.ofExcept (EntityId.ofText spelled) >>= fun id =>
    Session.loadEntity kind id force required

end EntityCall

/-- The entity that a request creates. -/
def Request.created? : Request → Option Entity
  | .createEntity e => some e
  | _ => none

/-- The entities that requests created under a kind and an id, from the first to the last. -/
def created (requests : List Request) (kind : EntityKind) (id : EntityId) : List Entity :=
  (requests.filterMap Request.created?).filter (·.isOf kind id)

theorem mem_created {requests : List Request} {kind : EntityKind} {id : EntityId} {e : Entity} :
    e ∈ created requests kind id ↔ .createEntity e ∈ requests ∧ e.kind = kind ∧ e.id = id := by
  rw [created, List.mem_filter, List.mem_filterMap, Entity.isOf_iff]
  refine and_congr_left fun _ => ⟨?_, fun h => ⟨_, h, rfl⟩⟩
  rintro ⟨request, hrequest, hcreated⟩
  cases request with
  | createEntity other =>
      obtain rfl : other = e := Option.some.inj hcreated
      exact hrequest
  | _ => cases hcreated

theorem created_append (first second : List Request) (kind : EntityKind) (id : EntityId) :
    created (first ++ second) kind id = created first kind id ++ created second kind id := by
  rw [created, List.filterMap_append, List.filter_append]
  rfl

namespace Store

variable {store : Store}

/-! ## The entity that is shown -/

/-- Which one a store shows of the entities that were created under one kind and id. -/
def shown : Store → List Entity → Option Entity
  | .memory, entities => entities.head?
  | .table, entities => entities.getLast?

/-- An entity that is created in the table takes the place of another one. -/
theorem entity?_createEntity_table (t : Table) (e : Entity) (kind : EntityKind) (id : EntityId) :
    Store.table.entity? (t.createEntity e) kind id =
      if e.isOf kind id then some e else Store.table.entity? t kind id := by
  show ((t.entities.filter fun other => !other.isOf e.kind e.id) ++ [e]).find? (Entity.isOf kind id)
    = if e.isOf kind id then some e else t.entities.find? (Entity.isOf kind id)
  rw [List.find?_append, List.find?_singleton]
  by_cases hof : e.isOf kind id = true
  · -- None of the entities that stay is of the kind and the id.
    obtain ⟨rfl, rfl⟩ := Entity.isOf_iff.1 hof
    have hnone : (t.entities.filter fun other => !other.isOf e.kind e.id).find?
        (Entity.isOf e.kind e.id) = none := by
      rw [List.find?_eq_none]
      intro other hother
      simpa using (List.mem_filter.1 hother).2
    rw [hnone, Option.none_or, if_pos hof, if_pos hof]
  · -- All entities of the kind and the id stay.
    have hstays : ∀ other : Entity,
        decide ((!other.isOf e.kind e.id) = true ∧ other.isOf kind id = true)
          = other.isOf kind id := by
      intro other
      by_cases hother : other.isOf kind id = true
      · obtain ⟨rfl, rfl⟩ := Entity.isOf_iff.1 hother
        have hne : ¬ other.isOf e.kind e.id = true := by
          intro h
          obtain ⟨hkind, hid⟩ := Entity.isOf_iff.1 h
          exact hof (Entity.isOf_iff.2 ⟨hkind.symm, hid.symm⟩)
        simp [hne, hother]
      · simp [hother]
    rw [List.find?_filter, if_neg hof, if_neg hof, Option.or_none]
    exact congrArg (fun p => t.entities.find? p) (funext hstays)

/-- A creation adds its entity to those of which one is shown. -/
theorem shown_append_singleton (store : Store) (state : store.State) {entities : List Entity}
    {kind : EntityKind} {id : EntityId} (h : store.entity? state kind id = store.shown entities)
    (e : Entity) :
    store.entity? (store.backend.answer state (.createEntity e)).2 kind id
      = store.shown (entities ++ [e].filter (·.isOf kind id)) := by
  cases store with
  | memory =>
      have h : state.entities.find? (Entity.isOf kind id) = entities.head? := h
      show (state.entities ++ [e]).find? (Entity.isOf kind id) = List.head? _
      rw [List.find?_append, h, List.head?_append, List.find?_singleton]
      by_cases hof : e.isOf kind id = true
      · simp [hof]
      · simp [hof]
  | table =>
      have h : Store.table.entity? state kind id = entities.getLast? := h
      show Store.table.entity? (state.createEntity e) kind id = List.getLast? _
      rw [entity?_createEntity_table, h]
      by_cases hof : e.isOf kind id = true
      · simp [hof]
      · simp [hof]

/-- After any requests a store shows the first or the last of the entities that they created. -/
theorem entity?_after (store : Store) (requests : List Request) (kind : EntityKind)
    (id : EntityId) :
    store.entity? (store.backend.after requests store.empty) kind id
      = store.shown (created requests kind id) := by
  induction requests using List.reverseRecOn with
  | nil => cases store <;> rfl
  | append_singleton before request ih =>
      rw [Backend.after_concat, created_append]
      by_cases hcreate : ∃ e, request = .createEntity e
      · obtain ⟨e, rfl⟩ := hcreate
        exact shown_append_singleton store _ ih e
      · have hsound : store.Sound (store.backend.after before store.empty) :=
          (Reachable.empty.after before).sound
        have hnone : created [request] kind id = [] := by
          cases request with
          | createEntity e => exact absurd ⟨e, rfl⟩ hcreate
          | _ => rfl
        have hkept := entity?_answer hsound.orderly request fun e he => hcreate ⟨e, he⟩
        rw [hkept, ih, hnone, List.append_nil]

/-! ## Reading back -/

/-- A store without contents after some calls. -/
def afterCalls (store : Store) (calls : List EntityCall) : store.State :=
  store.backend.after (EntityCall.requests calls) store.empty

/-- After any calls an entity is found under an id in any accepted spelling exactly if one was
created under the kind and the id. It is the one that was created last in the table; in memory
it is the one that was created first. Looking it up finds the same, however it is forced, and
fails if it is required and there is none. -/
theorem entity_read_back (store : Store) (calls : List EntityCall) (kind : EntityKind)
    {spelled : String} {id : EntityId} (accepted : EntityId.ofText? spelled = some id) :
    ∃ found,
      (EntityCall.read kind spelled).run store.backend Faults.none (store.afterCalls calls)
        = (.ok found, store.afterCalls calls) ∧
      (∀ force, (EntityCall.load kind spelled force false).run store.backend Faults.none
          (store.afterCalls calls) = (.ok found, store.afterCalls calls)) ∧
      (∀ force, (EntityCall.load kind spelled force true).run store.backend Faults.none
          (store.afterCalls calls)
        = (if found = none then .error (.invalidId ("No such " ++ kind.name ++ ": " ++ id.text))
            else .ok found, store.afterCalls calls)) ∧
      (found = none ↔ ∀ call ∈ calls, ∀ e, call.request? = some (.createEntity e) →
        ¬ (e.kind = kind ∧ e.id = id)) ∧
      (∀ e, found = some e → e.kind = kind ∧ e.id = id) ∧
      (found = (created (EntityCall.requests calls) kind id).getLast? ↔
        store = .table ∨ (created (EntityCall.requests calls) kind id).head?
          = (created (EntityCall.requests calls) kind id).getLast?) := by
  have hid : EntityId.ofText spelled = .ok id := by
    rw [EntityId.ofText, accepted]
  have hread : store.backend.answer (store.afterCalls calls) (.readEntity kind id)
      = (.ok (store.shown (created (EntityCall.requests calls) kind id)),
          store.afterCalls calls) := by
    rw [store.knows, afterCalls, entity?_after]
  generalize hfound : store.shown (created (EntityCall.requests calls) kind id) = found at hread
  have hmem : ∀ e, found = some e → e ∈ created (EntityCall.requests calls) kind id := by
    intro e he
    rw [← hfound] at he
    cases store with
    | memory => exact List.mem_of_head? he
    | table => exact List.mem_of_getLast? he
  have hload : ∀ force required,
      (EntityCall.load kind spelled force required).run store.backend Faults.none
          (store.afterCalls calls)
        = (if required = true ∧ found = none then
              .error (.invalidId ("No such " ++ kind.name ++ ": " ++ id.text))
            else .ok found, store.afterCalls calls) := by
    intro force required
    rw [EntityCall.load, hid]
    show (Session.loadEntity kind id force required).run _ _ _ = _
    rw [Session.loadEntity, Session.run_none_bind, Session.call, Session.run_none_ask, hread]
    cases found <;> cases required <;> rfl
  refine ⟨found, ?_, fun force => ?_, fun force => ?_, ?_, ?_, ?_⟩
  · rw [EntityCall.read, hid]
    show (Session.call (.readEntity kind id)).run _ _ _ = _
    rw [Session.call, Session.run_none_ask, hread]
    rfl
  · rw [hload, if_neg fun h => Bool.false_ne_true h.1]
  · rw [hload]
    simp only [true_and]
  · have hnone : found = none ↔ created (EntityCall.requests calls) kind id = [] := by
      rw [← hfound]
      cases store with
      | memory => exact List.head?_eq_none_iff
      | table => exact List.getLast?_eq_none_iff
    rw [hnone, List.eq_nil_iff_forall_not_mem]
    simp only [mem_created, EntityCall.requests, List.mem_filterMap]
    constructor
    · intro h call hcall e he hof
      exact h e ⟨⟨call, hcall, he⟩, hof⟩
    · rintro h e ⟨⟨call, hcall, he⟩, hof⟩
      exact h call hcall e he hof
  · intro e he
    exact (mem_created.1 (hmem e he)).2
  · rw [← hfound]
    cases store with
    | memory => simp [shown]
    | table => simp [shown]

/-- The id of the examples. -/
def someId : EntityId := ⟨"aaaaaaaaaaaaaaaaaaaaaaaa", by decide⟩

/-- A user gets another name, under the same id in another spelling, and a group has the same id
as well. -/
def renamed : List EntityCall :=
  [.create .user "aaaaaaaaaaaaaaaaaaaaaaaa" "first",
    .create .user " AAAAAAAAAAAAAAAAAAAAAAAA " "second",
    .create .group "aaaaaaaaaaaaaaaaaaaaaaaa" "third"]

/-- The table shows the new name. -/
theorem entity_read_back_of_renamed :
    EntityId.ofText? "\tAaaaaaaaaaaaaaaaaaaaaaaa" = some someId ∧
    (EntityCall.read .user "\tAaaaaaaaaaaaaaaaaaaaaaaa").run Store.table.backend Faults.none
        (Store.table.afterCalls renamed)
      = (.ok (some ⟨.user, someId, "second"⟩), Store.table.afterCalls renamed) := by
  have haccepted : EntityId.ofText? "\tAaaaaaaaaaaaaaaaaaaaaaaa" = some someId := by decide
  obtain ⟨found, hread, -, -, -, -, hlast⟩ := entity_read_back .table renamed .user haccepted
  have hcreated : (created (EntityCall.requests renamed) .user someId).getLast?
      = some ⟨.user, someId, "second"⟩ := by decide
  rw [hlast.2 (Or.inl rfl), hcreated] at hread
  exact ⟨haccepted, hread⟩

/-- The store in memory still shows the old name. -/
theorem first_name_shown :
    (EntityCall.read .user "aaaaaaaaaaaaaaaaaaaaaaaa").run Store.memory.backend Faults.none
        (Store.memory.afterCalls renamed)
      = (.ok (some ⟨.user, someId, "first"⟩), Store.memory.afterCalls renamed) ∧
    (created (EntityCall.requests renamed) .user someId).getLast?
      = some ⟨.user, someId, "second"⟩ := ⟨rfl, by decide⟩

end Store

end SettingStore
