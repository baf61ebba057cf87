import SettingStore.Session

set_option autoImplicit false

/-! # What a session ends with

`Session.Ends backend post s state` says that the session `s`, played against the backend from
`state` on, ends with an outcome and a state that satisfy `post`, whichever of its calls fail.
The rules below take a session apart: `ends_done`, `ends_ask` and `ends_bind`. What every
request preserves, a session preserves as a whole (`ends_of_kept`), and so it does what all of
its own requests preserve (`Asks.ends`). A session that leaves the store as it is only yields a
value (`Session.Yields`). For sessions in which no call fails there is `run_none_bind`.
-/

namespace SettingStore

namespace Faults

/-- Whether the first call fails, and the faults of the calls after it. -/
def cons (first : Bool) (rest : Faults) : Faults
  | 0, _ => first
  | n + 1, request => rest n request

end Faults

namespace Session

variable {σ α β : Type} {backend : Backend σ}

/-! ## Any calls may fail -/

/-- Whatever calls fail, the outcome and the last state satisfy `post`. -/
def Ends (backend : Backend σ) (post : Except Error α → σ → Prop) (s : Session α) (state : σ) :
    Prop :=
  ∀ faults, post (s.run backend faults state).1 (s.run backend faults state).2

variable {post : Except Error α → σ → Prop}

/-- A session that is done ends with its outcome. -/
theorem ends_done {outcome : Except Error α} {state : σ} :
    Ends backend post (.done outcome) state ↔ post outcome state :=
  ⟨fun h => h Faults.none, fun h _ => h⟩

/-- A session that asks ends well if it does so after a fault and after the answer. -/
theorem ends_ask {request : Request} {resume : Except Error request.Answer → Session α}
    {state : σ} :
    Ends backend post (.ask request resume) state ↔
      Ends backend post (resume (.error .database)) state ∧
        Ends backend post (resume (backend.answer state request).1)
          (backend.answer state request).2 := by
  constructor
  · intro h
    constructor
    · intro faults
      exact h (Faults.cons true faults)
    · intro faults
      exact h (Faults.cons false faults)
  · rintro ⟨hfault, hanswer⟩ faults
    rw [run]
    split
    · exact hfault faults.later
    · exact hanswer faults.later

/-- A weaker condition holds at the end as well. -/
theorem Ends.imp {post' : Except Error α → σ → Prop} {s : Session α} {state : σ}
    (h : Ends backend post s state) (himp : ∀ outcome state', post outcome state' →
      post' outcome state') : Ends backend post' s state :=
  fun faults => himp _ _ (h faults)

/-- Two conditions that hold at the end hold there together. -/
theorem Ends.and {post' : Except Error α → σ → Prop} {s : Session α} {state : σ}
    (h : Ends backend post s state) (h' : Ends backend post' s state) :
    Ends backend (fun outcome state' => post outcome state' ∧ post' outcome state') s state :=
  fun faults => ⟨h faults, h' faults⟩

/-- What every request preserves, every session preserves. -/
theorem ends_of_kept {kept : σ → Prop}
    (answer : ∀ {state}, kept state → ∀ request, kept (backend.answer state request).2)
    (s : Session α) {state : σ} (h : kept state) :
    Ends backend (fun _ state' => kept state') s state := by
  induction s generalizing state with
  | done outcome => exact ends_done.2 h
  | ask request resume ih => exact ends_ask.2 ⟨ih _ h, ih _ (answer h request)⟩

/-- All requests of the session are of a certain kind. -/
def Asks (ok : Request → Prop) : Session α → Prop
  | .done _ => True
  | .ask request resume => ok request ∧ ∀ answer, Asks ok (resume answer)

/-- Sessions with such requests may follow one another. -/
theorem Asks.bind {ok : Request → Prop} {s : Session α} {next : α → Session β} (h : s.Asks ok)
    (hnext : ∀ a, (next a).Asks ok) : (s >>= next).Asks ok := by
  induction s with
  | done outcome =>
      cases outcome with
      | ok a => exact hnext a
      | error e => trivial
  | ask request resume ih => exact ⟨h.1, fun answer => ih answer (h.2 answer)⟩

/-- What every request of a kind preserves, a session with such requests preserves as a whole. -/
theorem Asks.ends {ok : Request → Prop} {kept : σ → Prop}
    (answer : ∀ {state}, kept state → ∀ request, ok request →
      kept (backend.answer state request).2)
    {s : Session α} (hs : s.Asks ok) {state : σ} (h : kept state) :
    Ends backend (fun _ state' => kept state') s state := by
  induction s generalizing state with
  | done outcome => exact ends_done.2 h
  | ask request resume ih =>
      exact ends_ask.2 ⟨ih _ (hs.2 _) h, ih _ (hs.2 _) (answer h request hs.1)⟩

/-- What has to hold after the first of two sessions, so that `post` holds after both. -/
def Before (backend : Backend σ) (post : Except Error β → σ → Prop) (next : α → Session β) :
    Except Error α → σ → Prop
  | .ok a, state => Ends backend post (next a) state
  | .error e, state => post (.error e) state

theorem before_ok {post : Except Error β → σ → Prop} {next : α → Session β} {a : α} {state : σ} :
    Before backend post next (.ok a) state ↔ Ends backend post (next a) state := Iff.rfl

theorem before_error {post : Except Error β → σ → Prop} {next : α → Session β} {e : Error}
    {state : σ} : Before backend post next (.error e) state ↔ post (.error e) state := Iff.rfl

/-- Two sessions after one another end well if the second one does from wherever the first
one leads. -/
theorem ends_bind {post : Except Error β → σ → Prop} {s : Session α} {next : α → Session β}
    {state : σ} :
    Ends backend post (s >>= next) state ↔ Ends backend (Before backend post next) s state := by
  induction s generalizing state with
  | done outcome =>
      rw [ends_done]
      cases outcome with
      | ok a => exact Iff.rfl
      | error e => exact ends_done
  | ask request resume ih =>
      rw [ask_bind, ends_ask, ends_ask, ih, ih]

/-- A session whose value is changed afterwards makes the same calls. -/
theorem run_bind_pure (s : Session α) (change : α → β) (faults : Faults) (state : σ) :
    (s >>= fun a => pure (change a)).run backend faults state
      = ((s.run backend faults state).1.map change, (s.run backend faults state).2) := by
  induction s generalizing faults state with
  | done outcome => cases outcome <;> rfl
  | ask request resume ih =>
      rw [ask_bind, run, run]
      split
      · exact ih _ _ _
      · exact ih _ _ _

/-! ## Sessions that only yield a value -/

/-- Whatever calls fail, the session leaves the store as it is, and a value that it ends with
satisfies `holds`. -/
def Yields (backend : Backend σ) (holds : α → Prop) (s : Session α) (state : σ) : Prop :=
  Ends backend (fun outcome state' => state' = state ∧ ∀ a, outcome = .ok a → holds a) s state

variable {holds : α → Prop} {holds' : β → Prop} {state : σ}

theorem yields_done {outcome : Except Error α} (h : ∀ a, outcome = .ok a → holds a) :
    Yields backend holds (.done outcome) state :=
  ends_done.2 ⟨rfl, h⟩

theorem yields_pure {a : α} (h : holds a) : Yields backend holds (pure a) state :=
  yields_done fun _ ha => by
    cases ha
    exact h

theorem yields_fail (e : Error) : Yields backend holds (fail e) state :=
  yields_done fun _ ha => by cases ha

/-- A session that goes on with what another one yields. -/
theorem Yields.bind {s : Session α} {next : α → Session β} (h : Yields backend holds s state)
    (hnext : ∀ a, holds a → Yields backend holds' (next a) state) :
    Yields backend holds' (s >>= next) state := by
  refine ends_bind.2 (Ends.imp h ?_)
  rintro outcome state' ⟨rfl, hholds⟩
  cases outcome with
  | ok a => exact before_ok.2 (hnext a (hholds a rfl))
  | error e => exact before_error.2 ⟨rfl, fun _ ha => by cases ha⟩

/-! ## No call fails -/

/-- A call that does not fail. -/
@[simp] theorem run_none_ask (request : Request)
    (resume : Except Error request.Answer → Session α) (state : σ) :
    (ask request resume).run backend Faults.none state =
      (resume (backend.answer state request).1).run backend Faults.none
        (backend.answer state request).2 := rfl

/-- What follows a run that went well, and a run that ended with an error. -/
theorem run_none_bind (s : Session α) (next : α → Session β) (state : σ) :
    (s >>= next).run backend Faults.none state =
      match s.run backend Faults.none state with
      | (.ok a, state') => (next a).run backend Faults.none state'
      | (.error e, state') => (.error e, state') := by
  induction s generalizing state with
  | done outcome => cases outcome <;> rfl
  | ask request resume ih =>
      rw [ask_bind, run_none_ask, run_none_ask]
      exact ih _ _

end Session

end SettingStore
