import SettingStore.Proofs.Session.LooksUp

set_option autoImplicit false

/-! # Sessions among others

Between two calls of a session others may make calls to the same store, and any call may fail.
`Session.Among backend valid onward s state` says that the session `s` gets along with them:
as long as all others keep the store `valid` and lead it only `onward` from `state`, every call
of `s` does the same. Then every state that `s` leads through is valid (`Among.trace`), and
what `s` relies on at one call may be what it learned from an earlier one, if leading onward
keeps it true.
-/

namespace SettingStore.Session

variable {α β σ : Type} {backend : Backend σ} {valid : σ → Prop} {onward : σ → σ → Prop}

/-- Wherever the others lead the store before a call, the call keeps it valid and leads it
onward; so do all calls after it, also if it fails. -/
def Among (backend : Backend σ) (valid : σ → Prop) (onward : σ → σ → Prop) :
    Session α → σ → Prop
  | .done _, _ => True
  | .ask request resume, state => ∀ now, valid now → onward state now →
      Among backend valid onward (resume (.error .database)) now ∧
        (valid (backend.answer now request).2 ∧ onward now (backend.answer now request).2) ∧
        Among backend valid onward (resume (backend.answer now request).1)
          (backend.answer now request).2

theorem among_done (outcome : Except Error α) (state : σ) :
    Among backend valid onward (.done outcome) state := trivial

/-- A single call. -/
theorem among_call {request : Request} {state : σ}
    (h : ∀ now, valid now → onward state now →
      valid (backend.answer now request).2 ∧ onward now (backend.answer now request).2) :
    Among backend valid onward (call request) state :=
  fun now hvalid honward => ⟨trivial, h now hvalid honward, trivial⟩

/-- A single call after which the session goes on in any case. -/
theorem among_attempt {request : Request} {state : σ}
    (h : ∀ now, valid now → onward state now →
      valid (backend.answer now request).2 ∧ onward now (backend.answer now request).2) :
    Among backend valid onward (attempt request) state :=
  fun now hvalid honward => ⟨trivial, h now hvalid honward, trivial⟩

/-- The next call keeps the store valid and leads it onward, and what is left of the session gets
along with the others from there. -/
theorem Among.step {s : Session α} {state : σ} (h : Among backend valid onward s state)
    (refl : ∀ state, onward state state) (hvalid : valid state) (fails : Request → Bool) :
    valid (s.step backend fails state).2 ∧ onward state (s.step backend fails state).2 ∧
      Among backend valid onward (s.step backend fails state).1 (s.step backend fails state).2 := by
  cases s with
  | done outcome => exact ⟨hvalid, refl state, trivial⟩
  | ask request resume =>
      obtain ⟨hfault, ⟨hvalid', honward⟩, hanswer⟩ := h state hvalid (refl state)
      rw [Session.step]
      split
      · exact ⟨hvalid, refl state, hfault⟩
      · exact ⟨hvalid', honward, hanswer⟩

/-- A session that only looks entities up. -/
theorem LooksUp.among {s : Session α} (h : s.LooksUp) (refl : ∀ state, onward state state)
    (reads : ∀ now kind id, (backend.answer now (.readEntity kind id)).2 = now) (state : σ) :
    Among backend valid onward s state := by
  induction s generalizing state with
  | done outcome => trivial
  | ask request resume ih =>
      cases request with
      | readEntity kind id =>
          intro now hvalid honward
          rw [reads]
          exact ⟨ih _ (h.2 _) now, ⟨hvalid, refl now⟩, ih _ (h.2 _) now⟩
      | _ => exact h.elim

/-! ## Composition -/

section Composition

variable (refl : ∀ state, onward state state)
  (trans : ∀ {a b c}, onward a b → onward b c → onward a c)
include trans

/-- What the others do before the first call does not matter. -/
theorem Among.later {s : Session α} {state now : σ} (h : Among backend valid onward s state)
    (honward : onward state now) : Among backend valid onward s now := by
  cases s with
  | done outcome => trivial
  | ask request resume => exact fun later hvalid hlater => h later hvalid (trans honward hlater)

include refl

/-- A session that goes on with another one. -/
theorem Among.bind {s : Session α} {next : α → Session β} {state : σ}
    (h : Among backend valid onward s state)
    (hnext : ∀ a now, onward state now → Among backend valid onward (next a) now) :
    Among backend valid onward (s >>= next) state := by
  induction s generalizing state with
  | done outcome =>
      cases outcome with
      | ok a => exact hnext a state (refl state)
      | error e => trivial
  | ask request resume ih =>
      rw [ask_bind]
      intro now hvalid honward
      obtain ⟨hfault, ⟨hvalid', honward'⟩, hanswer⟩ := h now hvalid honward
      refine ⟨ih _ hfault ?_, ⟨hvalid', honward'⟩, ih _ hanswer ?_⟩
      · intro a later hlater
        exact hnext a later (trans honward hlater)
      · intro a later hlater
        exact hnext a later (trans honward (trans honward' hlater))

end Composition

/-! ## The states of a run -/

/-- The states that a session leads through, from the first one to the last one. -/
def trace (backend : Backend σ) (faults : Faults) : Session α → σ → List σ
  | .done _, state => [state]
  | .ask request resume, state =>
      state ::
        if faults 0 request then trace backend faults.later (resume (.error .database)) state
        else
          let answered := backend.answer state request
          trace backend faults.later (resume answered.1) answered.2

/-- A run ends in the last state of its trace. -/
theorem getLast?_trace (backend : Backend σ) (faults : Faults) (s : Session α) (state : σ) :
    (s.trace backend faults state).getLast? = some (s.run backend faults state).2 := by
  induction s generalizing faults state with
  | done outcome => rfl
  | ask request resume ih =>
      rw [trace, run, List.getLast?_cons]
      split
      · rw [ih, Option.getD_some]
      · dsimp only
        rw [ih, Option.getD_some]

/-- Without others, the session keeps the store valid and leads it onward all the time. -/
theorem Among.trace (refl : ∀ state, onward state state)
    (trans : ∀ {a b c}, onward a b → onward b c → onward a c) {s : Session α} {state : σ}
    (h : Among backend valid onward s state) (hvalid : valid state) (faults : Faults) :
    ∀ now ∈ s.trace backend faults state, valid now ∧ onward state now := by
  induction s generalizing faults state with
  | done outcome =>
      intro now hnow
      rw [Session.trace, List.mem_singleton] at hnow
      rw [hnow]
      exact ⟨hvalid, refl state⟩
  | ask request resume ih =>
      obtain ⟨hfault, ⟨hvalid', honward'⟩, hanswer⟩ := h state hvalid (refl state)
      intro now hnow
      rw [Session.trace, List.mem_cons] at hnow
      rcases hnow with rfl | hnow
      · exact ⟨hvalid, refl now⟩
      · split at hnow
        · exact ih _ hfault hvalid _ now hnow
        · obtain ⟨hnow, hlater⟩ := ih _ hanswer hvalid' _ now hnow
          exact ⟨hnow, trans honward' hlater⟩

end SettingStore.Session
