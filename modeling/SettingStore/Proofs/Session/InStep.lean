import SettingStore.Session

set_option autoImplicit false

/-! # Sessions with two stores

Two sessions, each with a store of its own, are in step if they always make the same call, and
go on being in step both where that call fails and after the two answers, which need not be
equal. `InStep.run` says what this means for runs with the same faults, and `InStep.bind` puts
sessions together.
-/

namespace SettingStore.Session

variable {α β σ τ : Type} {backend : Backend σ} {other : Backend τ}

/-- The sessions make the same calls, and what they end with satisfies `post`. -/
inductive InStep (backend : Backend σ) (other : Backend τ)
    (post : Except Error α × σ → Except Error α × τ → Prop) :
    Session α → Session α → σ → τ → Prop where
  | done {outcome outcome' : Except Error α} {a : σ} {b : τ}
      (ends : post (outcome, a) (outcome', b)) :
      InStep backend other post (.done outcome) (.done outcome') a b
  | ask {request : Request} {resume resume' : Except Error request.Answer → Session α}
      {a : σ} {b : τ}
      (fault : InStep backend other post (resume (.error .database)) (resume' (.error .database))
        a b)
      (answer : InStep backend other post (resume (backend.answer a request).1)
        (resume' (other.answer b request).1) (backend.answer a request).2
        (other.answer b request).2) :
      InStep backend other post (.ask request resume) (.ask request resume') a b

/-- The outcomes are the same, and the states are related. -/
def SameEnd (R : σ → τ → Prop) (x : Except Error α × σ) (y : Except Error α × τ) : Prop :=
  x.1 = y.1 ∧ R x.2 y.2

namespace InStep

variable {post : Except Error α × σ → Except Error α × τ → Prop} {s s' : Session α} {a : σ} {b : τ}

/-- Played with the same calls failing, sessions in step end as they should. -/
theorem run (h : InStep backend other post s s' a b) (faults : Faults) :
    post (s.run backend faults a) (s'.run other faults b) := by
  induction h generalizing faults with
  | done ends => exact ends
  | @ask request resume resume' a b _ _ ihfault ihanswer =>
      rw [Session.run, Session.run]
      by_cases hfails : faults 0 request = true
      · rw [if_pos hfails, if_pos hfails]
        exact ihfault faults.later
      · rw [if_neg hfails, if_neg hfails]
        exact ihanswer faults.later

/-- A weaker condition holds at the end as well. -/
theorem imp {post' : Except Error α × σ → Except Error α × τ → Prop}
    (h : InStep backend other post s s' a b) (himp : ∀ x y, post x y → post' x y) :
    InStep backend other post' s s' a b := by
  induction h with
  | done ends => exact .done (himp _ _ ends)
  | ask _ _ ihfault ihanswer => exact .ask ihfault ihanswer

/-- Sessions in step that are followed by sessions in step. -/
theorem bind {R : σ → τ → Prop} {post : Except Error β × σ → Except Error β × τ → Prop}
    {next next' : α → Session β} (h : InStep backend other (SameEnd R) s s' a b)
    (hok : ∀ x a' b', R a' b' → InStep backend other post (next x) (next' x) a' b')
    (herror : ∀ e a' b', R a' b' → post (.error e, a') (.error e, b')) :
    InStep backend other post (s >>= next) (s' >>= next') a b := by
  induction h with
  | @done outcome outcome' a b ends =>
      obtain ⟨heq, hstates⟩ := ends
      dsimp only at heq hstates
      subst heq
      cases outcome with
      | ok x => exact hok x a b hstates
      | error e => exact .done (herror e a b hstates)
  | ask _ _ ihfault ihanswer =>
      rw [ask_bind, ask_bind]
      exact .ask ihfault ihanswer

/-- Sessions in step that keep the states related, one after another. -/
theorem bind_same {R : σ → τ → Prop} {next next' : α → Session β}
    (h : InStep backend other (SameEnd R) s s' a b)
    (hnext : ∀ x a' b', R a' b' → InStep backend other (SameEnd R) (next x) (next' x) a' b') :
    InStep backend other (SameEnd R) (s >>= next) (s' >>= next') a b :=
  h.bind hnext fun _ _ _ hstates => ⟨rfl, hstates⟩

end InStep

end SettingStore.Session
