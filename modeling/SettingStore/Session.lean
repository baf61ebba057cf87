import SettingStore.Document
import SettingStore.Entity
import SettingStore.Error

set_option autoImplicit false

/-! # Sessions with a store

What the library does with a store is written as a *session*: a value that is either done,
with an outcome, or asks one request and says how to go on for each answer. A session fixes
nothing about the store. `Session.run` plays it against a backend, where each call may fail
without effect; because a session shows every single call, the calls of several sessions can
also be interleaved.
-/

namespace SettingStore

/-! ## Requests -/

/-- One call to a store. -/
inductive Request where
  | findSetting (key : String)
  | listSettings (filter : Filter)
  | saveSetting (setting : Setting)
  | removeSetting (id : Int)
  | listIndexes
  | dropIndex (name : String)
  | createIndex (field : String) (unique : Bool)
  | listDuplicates
  | readEntity (kind : EntityKind) (id : EntityId)
  | createEntity (entity : Entity)

namespace Request

/-- What a successful call answers. -/
abbrev Answer : Request → Type
  | .findSetting _ => Option Document
  | .listSettings _ => List Document
  | .saveSetting _ => Document
  | .removeSetting _ => Unit
  | .listIndexes => List Index
  | .dropIndex _ => Unit
  | .createIndex _ _ => Unit
  | .listDuplicates => List DuplicateGroup
  | .readEntity _ _ => Option Entity
  | .createEntity _ => Unit

/-- The kinds of calls. -/
inductive Kind where
  | findSetting
  | listSettings
  | saveSetting
  | removeSetting
  | listIndexes
  | dropIndex
  | createIndex
  | listDuplicates
  | readEntity
  | createEntity
  deriving DecidableEq, Repr

/-- The kind of a call. -/
def kind : Request → Kind
  | .findSetting _ => .findSetting
  | .listSettings _ => .listSettings
  | .saveSetting _ => .saveSetting
  | .removeSetting _ => .removeSetting
  | .listIndexes => .listIndexes
  | .dropIndex _ => .dropIndex
  | .createIndex _ _ => .createIndex
  | .listDuplicates => .listDuplicates
  | .readEntity _ _ => .readEntity
  | .createEntity _ => .createEntity

end Request

/-! ## Sessions -/

/-- A sequence of calls in which each call may depend on the answers before it. -/
inductive Session (α : Type) where
  | done (outcome : Except Error α)
  | ask (request : Request) (resume : Except Error request.Answer → Session α)

namespace Session

variable {α β : Type}

/-- Go on with the value of a successful outcome; a failure ends the session. -/
def bind (s : Session α) (next : α → Session β) : Session β :=
  match s with
  | .done (.ok a) => next a
  | .done (.error e) => .done (.error e)
  | .ask request resume => .ask request fun answer => (resume answer).bind next

instance : Monad Session where
  pure a := .done (.ok a)
  bind := bind

/-- End with a failure. -/
def fail (e : Error) : Session α := .done (.error e)

/-- End with an outcome that needs no call. -/
def ofExcept (outcome : Except Error α) : Session α := .done outcome

/-- Make one call; its failure is a failure of the session. -/
def call (request : Request) : Session request.Answer := .ask request .done

/-- Make one call and go on whatever it answers. -/
def attempt (request : Request) : Session (Except Error request.Answer) :=
  .ask request fun answer => .done (.ok answer)

@[simp] theorem pure_bind' (a : α) (next : α → Session β) :
    (pure a : Session α) >>= next = next a := rfl

@[simp] theorem fail_bind (e : Error) (next : α → Session β) :
    (fail e : Session α) >>= next = fail e := rfl

@[simp] theorem ask_bind (request : Request)
    (resume : Except Error request.Answer → Session α) (next : α → Session β) :
    (ask request resume) >>= next = ask request fun answer => resume answer >>= next := rfl

/-- A session stays the same when nothing is done after it. -/
theorem bind_pure' (s : Session α) : s >>= pure = s := by
  induction s with
  | done outcome => cases outcome <;> rfl
  | ask request resume ih =>
      rw [ask_bind]
      exact congrArg _ (funext ih)

/-- Going on twice is going on with both. -/
theorem bind_assoc' {γ : Type} (s : Session α) (next : α → Session β) (after : β → Session γ) :
    s >>= next >>= after = s >>= fun a => next a >>= after := by
  induction s with
  | done outcome => cases outcome <;> rfl
  | ask request resume ih =>
      simp only [ask_bind]
      exact congrArg _ (funext ih)

end Session

/-! ## Backends -/

/-- A store with states of type `σ`: the answer to each request, and the state after it. -/
structure Backend (σ : Type) where
  answer : σ → (request : Request) → Except Error request.Answer × σ

/-- Which calls of a session fail, by their number and by what they ask. -/
abbrev Faults := Nat → Request → Bool

namespace Faults

/-- No call fails. -/
def none : Faults := fun _ _ => false

/-- Every call of one of the given kinds fails. -/
def ofKinds (kinds : List Request.Kind) : Faults := fun _ request => kinds.contains request.kind

/-- The faults of the calls after the first. -/
def later (faults : Faults) : Faults := fun n => faults (n + 1)

end Faults

namespace Session

variable {σ α β : Type}

/-- Play a session against a backend. A call that is made to fail answers a fault of the store
and leaves the state as it is. -/
def run (backend : Backend σ) (faults : Faults) : Session α → σ → Except Error α × σ
  | .done outcome, state => (outcome, state)
  | .ask request resume, state =>
      if faults 0 request then run backend faults.later (resume (.error .database)) state
      else
        let answered := backend.answer state request
        run backend faults.later (resume answered.1) answered.2

/-- The next call of a session, with the state after it; a session that is done stays so. -/
def step (backend : Backend σ) (fails : Request → Bool) : Session α → σ → Session α × σ
  | .done outcome, state => (.done outcome, state)
  | .ask request resume, state =>
      if fails request then (resume (.error .database), state)
      else
        let answered := backend.answer state request
        (resume answered.1, answered.2)

@[simp] theorem run_done (backend : Backend σ) (faults : Faults) (outcome : Except Error α)
    (state : σ) : run backend faults (.done outcome) state = (outcome, state) := rfl

end Session

end SettingStore
