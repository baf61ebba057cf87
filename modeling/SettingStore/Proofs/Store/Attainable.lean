import SettingStore.Proofs.Session.Ends
import SettingStore.Proofs.Store.Either
import SettingStore.Store.Table.Direct

set_option autoImplicit false

/-! # States with direct access

The contents of a store may also have been changed by another program: there may be indexes
of any form and documents that no check has seen. `Store.Attainable` says of a state that
requests and direct access lead to it from the store without contents. All these states are
orderly (`Attainable.orderly`), which is all that a repair and a single call of `set` rely on.
-/

namespace SettingStore

/-! ## Direct access to a table -/

namespace Table

variable {t t' : Table}

theorem orderly_addIndex? (orderly : t.Orderly) {index : ColumnIndex}
    (h : t.addIndex? index = some t') : t'.Orderly := by
  rw [addIndex?] at h
  split at h
  · rename_i hrespected
    cases h
    refine ⟨orderly.sorted, orderly.signed, orderly.bounded, orderly.highest, ?_⟩
    intro other hother
    rcases List.mem_cons.1 hother with rfl | hother
    · exact hrespected
    · exact orderly.respected other hother
  · exact absurd h (by simp)

theorem orderly_createDirectly? (orderly : t.Orderly) {name : String} {fields : List String}
    {unique : Bool} (h : t.createDirectly? name fields unique = some t') : t'.Orderly := by
  rw [createDirectly?.eq_def] at h
  split at h
  · exact absurd h (by simp)
  · exact absurd h (by simp)
  · split at h
    · exact absurd h (by simp)
    · exact orderly_addIndex? orderly h

theorem orderly_dropDirectly? (orderly : t.Orderly) {name : String}
    (h : t.dropDirectly? name = some t') : t'.Orderly := by
  rw [dropDirectly?] at h
  split at h
  · cases h
    refine ⟨orderly.sorted, orderly.signed, orderly.bounded, orderly.highest, ?_⟩
    intro index hindex
    exact orderly.respected index (List.mem_filter.1 hindex).1
  · exact absurd h (by simp)

end Table

/-! ## Attainable states -/

namespace Store

/-- A change that another program makes to the contents of a store. A table is still under
the rules of its database, and the store learns about the change when it is opened. -/
inductive Direct : (store : Store) → store.State → store.State → Prop where
  | document (m : Memory) (key : String) (v : Json) : Direct .memory m (m.insert key v).2
  | index (m : Memory) (index : Index) : Direct .memory m (m.addIndex index)
  | row {t t' : Table} {key : String} {text : Option String} {id : Int}
      (inserted : t.insertDirectly? key text = some (id, t')) : Direct .table t t'
  | create {t t' : Table} {name : String} {fields : List String} {unique : Bool}
      (created : t.createDirectly? name fields unique = some t') : Direct .table t t'
  | drop {t t' : Table} {name : String} (dropped : t.dropDirectly? name = some t') :
      Direct .table t t'
  | opened (t : Table) : Direct .table t t.opened

/-- The states that requests and direct access lead to from the store without contents. -/
inductive Attainable (store : Store) : store.State → Prop where
  | empty : Attainable store store.empty
  | answer {state : store.State} (request : Request) (before : Attainable store state) :
      Attainable store (store.backend.answer state request).2
  | direct {state state' : store.State} (before : Attainable store state)
      (access : store.Direct state state') : Attainable store state'

variable {store : Store} {state state' : store.State}

/-- Requests alone lead to fewer states. -/
theorem Reachable.attainable (h : store.Reachable state) : store.Attainable state := by
  induction h with
  | empty => exact .empty
  | answer request _ ih => exact .answer request ih

/-- Where a session ends is attainable from where it begins. -/
theorem Attainable.run {α : Type} (h : store.Attainable state) (s : Session α) (faults : Faults) :
    store.Attainable (s.run store.backend faults state).2 :=
  Session.ends_of_kept (fun h request => .answer request h) s h faults

theorem Direct.orderly (access : store.Direct state state') (orderly : store.Orderly state) :
    store.Orderly state' := by
  cases access with
  | document m key v => exact Memory.orderly_insert orderly key v
  | index m index =>
      have orderly : m.Orderly := orderly
      exact ⟨orderly.ids, orderly.bounded⟩
  | row inserted => exact (Table.puts_of_insertNext? orderly inserted).orderly orderly
  | create created => exact Table.orderly_createDirectly? orderly created
  | drop dropped => exact Table.orderly_dropDirectly? orderly dropped
  | opened t =>
      have orderly : t.Orderly := orderly
      exact ⟨orderly.sorted, orderly.signed, orderly.bounded, orderly.highest,
        orderly.respected⟩

theorem Attainable.orderly (h : store.Attainable state) : store.Orderly state := by
  induction h with
  | empty => exact Reachable.empty.sound.orderly
  | answer request _ ih => exact orderly_answer ih request
  | direct _ access ih => exact access.orderly ih

end Store

end SettingStore
