import SettingStore.Proofs.Session.Ends
import SettingStore.Proofs.Session.LooksUp

set_option autoImplicit false

/-! # The calls of a session

`Session.asked` lists the calls that a session makes when none of them fails. Faults that strike
none of these do not matter to the run (`run_eq_of_not_strike`), and a session that stops at
faults ends with the first one that strikes (`StopsAtFaults.outcome`).
-/

namespace SettingStore

namespace Faults

variable {faults : Faults} {request : Request} {rest : List Request}

/-- Of calls that are made one after another, one fails. -/
def Strike (faults : Faults) (requests : List Request) : Prop :=
  ∃ n request, requests[n]? = some request ∧ faults n request = true

theorem not_strike_nil : ¬ faults.Strike [] := by
  rintro ⟨n, request, hrequest, -⟩
  cases hrequest

theorem strike_cons :
    faults.Strike (request :: rest) ↔ faults 0 request = true ∨ faults.later.Strike rest := by
  constructor
  · rintro ⟨n, asked, hasked, hfails⟩
    cases n with
    | zero =>
        cases hasked
        exact Or.inl hfails
    | succ n => exact Or.inr ⟨n, asked, hasked, hfails⟩
  · rintro (hfails | ⟨n, asked, hasked, hfails⟩)
    · exact ⟨0, request, rfl, hfails⟩
    · exact ⟨n + 1, asked, hasked, hfails⟩

end Faults

namespace Session

variable {σ α β : Type} {backend : Backend σ} {faults : Faults}

/-- The calls that the session makes if none fails. -/
def asked (backend : Backend σ) : Session α → σ → List Request
  | .done _, _ => []
  | .ask request resume, state =>
      request :: asked backend (resume (backend.answer state request).1)
        (backend.answer state request).2

/-- Faults of other calls do not matter. -/
theorem run_eq_of_not_strike (s : Session α) {state : σ}
    (spared : ¬ faults.Strike (s.asked backend state)) :
    s.run backend faults state = s.run backend Faults.none state := by
  induction s generalizing faults state with
  | done outcome => rfl
  | ask request resume ih =>
      rw [asked, Faults.strike_cons, not_or] at spared
      -- The first call does not fail, and the faults of the later calls strike none of these.
      rw [run, if_neg spared.1, run_none_ask]
      exact ih _ spared.2

/-- Where a call fails, the session ends with the fault of the store. -/
def StopsAtFaults : Session α → Prop
  | .done _ => True
  | .ask _ resume =>
      resume (.error .database) = fail .database ∧ ∀ answer, StopsAtFaults (resume answer)

theorem StopsAtFaults.bind {s : Session α} {next : α → Session β} (h : s.StopsAtFaults)
    (hnext : ∀ a, (next a).StopsAtFaults) : (s >>= next).StopsAtFaults := by
  induction s with
  | done outcome =>
      cases outcome with
      | ok a => exact hnext a
      | error e => trivial
  | ask request resume ih =>
      refine ⟨?_, fun answer => ih answer (h.2 answer)⟩
      show resume (.error .database) >>= next = fail .database
      rw [h.1, fail_bind]

/-- The first call that fails decides the outcome. -/
theorem StopsAtFaults.outcome {s : Session α} (h : s.StopsAtFaults) {state : σ}
    (struck : faults.Strike (s.asked backend state)) :
    (s.run backend faults state).1 = .error .database := by
  induction s generalizing faults state with
  | done outcome => exact absurd struck Faults.not_strike_nil
  | ask request resume ih =>
      rw [asked, Faults.strike_cons] at struck
      rw [run]
      by_cases hfails : faults 0 request = true
      · rw [if_pos hfails, h.1]
        rfl
      · rw [if_neg hfails]
        exact ih _ (h.2 _) (struck.resolve_left hfails)

/-- A session that only looks entities up asks for nothing but entities. -/
theorem LooksUp.asked {s : Session α} (h : s.LooksUp) {state : σ} {request : Request}
    (hrequest : request ∈ s.asked backend state) : ∃ kind id, request = .readEntity kind id := by
  induction s generalizing state with
  | done outcome => exact absurd hrequest List.not_mem_nil
  | ask first resume ih =>
      cases first with
      | readEntity kind id =>
          rcases List.mem_cons.1 hrequest with rfl | hrest
          · exact ⟨kind, id, rfl⟩
          · exact ih _ (h.2 _) hrest
      | _ => exact h.elim

end Session

end SettingStore
