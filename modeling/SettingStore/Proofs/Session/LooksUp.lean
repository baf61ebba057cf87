import SettingStore.Proofs.Session.InStep
import SettingStore.Registry.Basic

set_option autoImplicit false

/-! # Sessions that only look entities up

The handlers of the registry call the store for one thing only, to see whether a user or a
group exists. `Session.LooksUp` states this of a session, and `Handler.looksUp_normalize`
proves it for every handler. Over any two stores in which the same entities exist such a
session is in step with itself (`LooksUp.inStep`), so it leaves every store as it is
(`LooksUp.run_state`) and has the same outcome over both (`LooksUp.run_eq`).
-/

namespace SettingStore

/-- In this state the backend answers every look-up of an entity by `lookup`, without a
change. -/
def Backend.Knows {σ : Type} (backend : Backend σ) (state : σ)
    (lookup : EntityKind → EntityId → Option Entity) : Prop :=
  ∀ kind id, backend.answer state (.readEntity kind id) = (.ok (lookup kind id), state)

namespace Session

variable {α β σ τ : Type}

/-- All calls of the session look up an entity, and only its existence matters afterwards. -/
def LooksUp : Session α → Prop
  | .done _ => True
  | .ask (.readEntity _ _) resume =>
      (∀ e e', resume (.ok (some e)) = resume (.ok (some e'))) ∧ ∀ answer, LooksUp (resume answer)
  | .ask _ _ => False

/-! ## Composition -/

theorem looksUp_pure (a : α) : LooksUp (pure a : Session α) := trivial

theorem looksUp_fail (e : Error) : LooksUp (fail e : Session α) := trivial

theorem looksUp_ofExcept (outcome : Except Error α) : LooksUp (ofExcept outcome) := trivial

/-- Sessions that only look up may follow one another. -/
theorem LooksUp.bind {s : Session α} {next : α → Session β} (h : s.LooksUp)
    (hnext : ∀ a, (next a).LooksUp) : (s >>= next).LooksUp := by
  induction s with
  | done outcome =>
      cases outcome with
      | ok a => exact hnext a
      | error e => exact looksUp_fail e
  | ask request resume ih =>
      cases request with
      | readEntity kind id =>
          obtain ⟨hsame, hresume⟩ := h
          refine ⟨fun e e' => ?_, fun answer => ih answer (hresume answer)⟩
          exact congrArg (· >>= next) (hsame e e')
      | _ => exact h.elim

/-! ## The core rules -/

theorem looksUp_loadEntity (kind : EntityKind) (id : EntityId) (next : Session β)
    (h : next.LooksUp) : LooksUp (loadEntity kind id true true >>= fun _ => next) := by
  refine ⟨fun e e' => rfl, fun answer => ?_⟩
  cases answer with
  | error e => exact looksUp_fail e
  | ok found =>
      cases found with
      | none => exact looksUp_fail _
      | some entity => exact h

theorem looksUp_canonicalIds (kind : EntityKind) (ids : List Json) :
    LooksUp (canonicalIds kind ids) := by
  induction ids with
  | nil => exact looksUp_pure _
  | cons v rest ih =>
      refine (looksUp_ofExcept _).bind fun id => ?_
      exact looksUp_loadEntity kind id _ (ih.bind fun others => looksUp_pure _)

theorem looksUp_resolveIds (kind : EntityKind) (name : String) (members : List (String × Json)) :
    LooksUp (resolveIds kind name members) := by
  rw [resolveIds]
  split
  · exact looksUp_pure _
  · exact (looksUp_canonicalIds kind _).bind fun canonical => looksUp_pure _
  · exact looksUp_fail _

theorem looksUp_collectionPolicy (v : Json) : LooksUp (collectionPolicy v) := by
  rw [collectionPolicy.eq_def]
  split
  · refine (looksUp_resolveIds .group "groups" _).bind fun members => ?_
    refine (looksUp_resolveIds .user "users" members).bind fun members => ?_
    split
    · exact looksUp_pure _
    · exact looksUp_pure _
  · exact looksUp_fail _

end Session

open Session in
/-- A rule only looks entities up. -/
theorem Rule.looksUp_normalize (deployment : Deployment) (rule : Rule) (v : Json) :
    (rule.normalize deployment v).LooksUp := by
  cases rule with
  | collectionPolicy => exact looksUp_collectionPolicy v
  | plugins => exact looksUp_ofExcept _
  | word words message =>
      rw [Rule.normalize.eq_def]
      cases v with
      | string s =>
          dsimp only
          split
          · exact looksUp_pure _
          · exact looksUp_fail _
      | _ => exact looksUp_fail _
  | anyCaseWord words message =>
      cases v with
      | string s =>
          rw [Rule.normalize.eq_def]
          dsimp only
          split
          · exact looksUp_pure _
          · exact looksUp_fail _
      | _ => exact looksUp_fail _
  | wholeNumber least message =>
      rw [Rule.normalize.eq_def]
      dsimp only
      split
      · split
        · exact looksUp_pure _
        · exact looksUp_fail _
      · exact looksUp_fail _
  | entries map message => cases v <;> first | exact looksUp_pure _ | exact looksUp_fail _
  | notBlank message =>
      rw [Rule.normalize.eq_def]
      dsimp only
      split
      · exact looksUp_fail _
      · exact looksUp_pure _
  | trimmed message => cases v <;> first | exact looksUp_pure _ | exact looksUp_fail _
  | anything => exact looksUp_pure v

/-- A handler only looks entities up. -/
theorem Handler.looksUp_normalize (handler : Handler) (s : Setting) :
    (handler.normalize s).LooksUp := by
  cases handler with
  | core key deployment => exact key.rule.looksUp_normalize deployment s.value
  | custom definition => exact Session.looksUp_ofExcept _

/-! ## Running -/

namespace Session.LooksUp

variable {α σ τ : Type} {backend : Backend σ} {s : Session α}

/-- Over two stores in which the same entities exist, the session makes the same calls, has the
same outcome and leaves both stores as they are. -/
theorem inStep (h : s.LooksUp) {other : Backend τ} {a : σ} {b : τ}
    {lookup lookup' : EntityKind → EntityId → Option Entity} (knows : backend.Knows a lookup)
    (knows' : other.Knows b lookup')
    (same : ∀ kind id, (lookup kind id).isSome = (lookup' kind id).isSome) :
    InStep backend other (SameEnd fun a' b' => a' = a ∧ b' = b) s s a b := by
  induction s with
  | done outcome => exact .done ⟨rfl, rfl, rfl⟩
  | ask request resume ih =>
      cases request with
      | readEntity kind id =>
          refine .ask (ih _ (h.2 _)) ?_
          rw [knows kind id, knows' kind id]
          have hsame := same kind id
          -- The two answers agree on whether there is an entity, which is all that matters.
          cases hl : lookup kind id with
          | none =>
              have hl' : lookup' kind id = none := by
                rwa [hl, Option.isSome_none, eq_comm, Option.isSome_eq_false_iff,
                  Option.isNone_iff_eq_none] at hsame
              rw [hl']
              exact ih _ (h.2 _)
          | some e =>
              rw [hl, Option.isSome_some, eq_comm, Option.isSome_iff_exists] at hsame
              obtain ⟨e', he'⟩ := hsame
              rw [he']
              show InStep backend other _ (resume (.ok (some e))) (resume (.ok (some e'))) a b
              rw [h.1 e e']
              exact ih _ (h.2 _)
      | _ => exact h.elim

/-- Looking entities up leaves the store as it is, whatever calls fail. -/
theorem run_state (h : s.LooksUp) {state : σ} {lookup : EntityKind → EntityId → Option Entity}
    (knows : backend.Knows state lookup) (faults : Faults) :
    (s.run backend faults state).2 = state :=
  ((h.inStep knows knows fun _ _ => rfl).run faults).2.1

/-- Over two stores in which the same entities exist, and with the same calls failing, the
outcome is the same. -/
theorem run_eq (h : s.LooksUp) {other : Backend τ} {a : σ} {b : τ}
    {lookup lookup' : EntityKind → EntityId → Option Entity} (knows : backend.Knows a lookup)
    (knows' : other.Knows b lookup')
    (same : ∀ kind id, (lookup kind id).isSome = (lookup' kind id).isSome) (faults : Faults) :
    (s.run backend faults a).1 = (s.run other faults b).1 :=
  ((h.inStep knows knows' same).run faults).1

end Session.LooksUp

end SettingStore
