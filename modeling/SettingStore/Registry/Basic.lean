import SettingStore.Core.Rule
import SettingStore.Registry.Definition

set_option autoImplicit false

/-! # The registry of settings

A key can be stored only if it has a handler. The registry is filled during start-up, where
no key gets a second handler, and is then frozen. Beside the handlers it holds default
values, which come before what a handler would answer itself.
-/

namespace SettingStore

/-- What is responsible for a key: a rule of the core settings, or a definition. -/
inductive Handler where
  | core (key : CoreKey) (deployment : Deployment)
  | custom (definition : Definition)

namespace Handler

/-- The value to store for a setting. -/
def normalize (handler : Handler) (s : Setting) : Session Json :=
  match handler with
  | .core key deployment => key.rule.normalize deployment s.value
  | .custom definition => .ofExcept (definition.normalize s)

/-- The value that holds while nothing is stored, as far as the handler knows. The email host
is the base address of the deployment. -/
def default? : Handler → Option Json
  | .core .emailHost deployment => deployment.origin.map fun o => .string o.baseAddress
  | .core _ _ => none
  | .custom definition => definition.fallback.join

end Handler

/-- The handlers and the default values registered so far; the latest comes first. -/
structure Registry where
  handlers : List (String × Handler)
  defaults : List (String × Json)

namespace Registry

/-- Nothing is registered. -/
def empty : Registry := ⟨[], []⟩

/-- The number of keys that have a handler. -/
def size (r : Registry) : Nat := r.handlers.length

/-- Register the handler of a key that has none. -/
def register (r : Registry) (key : String) (handler : Handler) : Except Error Registry :=
  if (r.handlers.lookup key).isSome then
    .error (.configuration ("Setting '" ++ key ++ "' is already registered"))
  else .ok { r with handlers := (key, handler) :: r.handlers }

/-- A key can be registered exactly when it has no handler. -/
theorem register_eq_ok_iff {r r' : Registry} {key : String} {handler : Handler} :
    r.register key handler = .ok r' ↔
      r.handlers.lookup key = none ∧ r' = { r with handlers := (key, handler) :: r.handlers } := by
  rw [register]
  cases hk : r.handlers.lookup key with
  | none =>
      rw [if_neg (by simp), Except.ok.injEq]
      constructor
      · intro h
        exact ⟨rfl, h.symm⟩
      · intro h
        exact h.2.symm
  | some other =>
      rw [if_pos (by simp)]
      constructor
      · intro h
        cases h
      · intro h
        cases h.1

/-- After a registration the key has the handler, and every other key has the one it had. -/
theorem lookup_of_register {r r' : Registry} {key : String} {handler : Handler}
    (h : r.register key handler = .ok r') (other : String) :
    r'.handlers.lookup other = if other = key then some handler else r.handlers.lookup other := by
  rw [(register_eq_ok_iff.1 h).2, List.lookup_cons]
  by_cases he : other = key
  · simp [he]
  · rw [if_neg he, beq_eq_false_iff_ne.2 he]

/-- Register a definition under its own key. -/
def registerDefinition (r : Registry) (d : Definition) : Except Error Registry :=
  r.register d.key (.custom d)

/-- Register the default value of a key, in the place of an earlier one. -/
def registerDefault (r : Registry) (key : String) (v : Json) : Registry :=
  { r with defaults := (key, v) :: r.defaults }

/-- Register core keys with their default values. At the first key that has a handler the
registration ends; what was registered before stays. -/
def registerKeys (deployment : Deployment) :
    List CoreKey → Registry → Except Error Unit × Registry
  | [], r => (.ok (), r)
  | key :: rest, r =>
      match r.register key.name (.core key deployment) with
      | .error e => (.error e, r)
      | .ok r =>
          registerKeys deployment rest
            (match key.staticDefault? with
              | some v => r.registerDefault key.name v
              | none => r)

/-- Register all core keys with their default values. -/
def registerCore (deployment : Deployment) (r : Registry) : Except Error Unit × Registry :=
  registerKeys deployment CoreKey.all r

end Registry

/-- A registry to which nothing is added any more. -/
structure FrozenRegistry where
  content : Registry

/-- Freeze a registry. -/
def Registry.freeze (r : Registry) : FrozenRegistry := ⟨r⟩

namespace FrozenRegistry

/-- The handler of a key. -/
def handler? (r : FrozenRegistry) (key : String) : Option Handler :=
  r.content.handlers.lookup key

/-- The default value registered for a key. -/
def staticDefault? (r : FrozenRegistry) (key : String) : Option Json :=
  r.content.defaults.lookup key

/-- The keys that have a handler, in order. -/
def keys (r : FrozenRegistry) : List String :=
  Ordered.sort (fun a b => decide (a ≤ b)) (r.content.handlers.map (·.1))

/-- The number of keys that have a handler. -/
def size (r : FrozenRegistry) : Nat := r.content.size

end FrozenRegistry

namespace Registry

/-- After a registration that went well the core keys have their handlers, and a key that had a
handler before still has it. -/
theorem lookup_of_registerKeys {deployment : Deployment} {keys : List CoreKey} {r : Registry}
    (h : (registerKeys deployment keys r).1 = .ok ()) :
    (∀ key ∈ keys, (registerKeys deployment keys r).2.handlers.lookup key.name
        = some (.core key deployment)) ∧
      ∀ name handler, r.handlers.lookup name = some handler →
        (registerKeys deployment keys r).2.handlers.lookup name = some handler := by
  induction keys generalizing r with
  | nil => exact ⟨fun _ hkey => absurd hkey List.not_mem_nil, fun _ _ hlookup => hlookup⟩
  | cons key rest ih =>
      rw [registerKeys] at h ⊢
      cases hregister : r.register key.name (.core key deployment) with
      | error e =>
          rw [hregister] at h
          cases h
      | ok next =>
          rw [hregister] at h
          have hnext := lookup_of_register hregister
          -- The default value that is registered beside the handler leaves all handlers.
          have hdefault : ∀ name, (match key.staticDefault? with
              | some v => next.registerDefault key.name v
              | none => next).handlers.lookup name = next.handlers.lookup name := by
            intro name
            cases key.staticDefault? <;> rfl
          obtain ⟨hkeys, hkept⟩ := ih h
          refine ⟨fun other hother => ?_, fun name handler hlookup => hkept name handler ?_⟩
          · rcases List.mem_cons.1 hother with rfl | hother
            · refine hkept _ _ ?_
              rw [hdefault, hnext, if_pos rfl]
            · exact hkeys other hother
          · rw [hdefault, hnext, if_neg ?_, hlookup]
            rintro rfl
            rw [(register_eq_ok_iff.1 hregister).1] at hlookup
            cases hlookup

/-- A key with a handler after a registration is one of the registered keys, or it had the
handler before. -/
theorem cases_of_registerKeys (deployment : Deployment) (keys : List CoreKey) (r : Registry)
    {name : String} {handler : Handler}
    (h : (registerKeys deployment keys r).2.handlers.lookup name = some handler) :
    (∃ key ∈ keys, name = key.name) ∨ r.handlers.lookup name = some handler := by
  induction keys generalizing r with
  | nil => exact Or.inr h
  | cons key rest ih =>
      rw [registerKeys] at h
      cases hregister : r.register key.name (.core key deployment) with
      | error e =>
          rw [hregister] at h
          exact Or.inr h
      | ok next =>
          rw [hregister] at h
          rcases ih _ h with ⟨other, hother, rfl⟩ | hbefore
          · exact Or.inl ⟨other, List.mem_cons_of_mem _ hother, rfl⟩
          · have hnext : next.handlers.lookup name = some handler := by
              rw [← hbefore]
              cases key.staticDefault? <;> rfl
            rw [lookup_of_register hregister] at hnext
            by_cases hname : name = key.name
            · exact Or.inl ⟨key, List.mem_cons_self, hname⟩
            · rw [if_neg hname] at hnext
              exact Or.inr hnext

/-- Where the core settings were registered, each core key has its handler. -/
theorem handler?_of_registerCore {deployment : Deployment} {r : Registry}
    (h : (r.registerCore deployment).1 = .ok ()) (key : CoreKey) :
    (r.registerCore deployment).2.freeze.handler? key.name = some (.core key deployment) :=
  (lookup_of_registerKeys h).1 key (by cases key <;> decide)

end Registry

end SettingStore
