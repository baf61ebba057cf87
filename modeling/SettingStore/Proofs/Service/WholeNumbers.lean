import Mathlib.Algebra.Group.Int.Defs
import SettingStore.Proofs.Service.Contents
import SettingStore.Proofs.Store.Mirror
import SettingStore.Proofs.Text.Spelling

set_option autoImplicit false

/-! # Settings that are whole numbers

A few core settings are whole numbers with a least value. `Json.DenotesWhole` says which values
denote a whole number; the settings take exactly those of a signed 64-bit number that is not too
small, and what was set is read back as that number (`whole_number_settings`).
-/

namespace SettingStore

open Session

/-! ## Values that denote a whole number -/

namespace Json

/-- The value denotes a whole number: the number itself, a truth value as 1 or 0, and a text that
spells it, with blanks around it or without. -/
inductive DenotesWhole : Json → Int → Prop
  | number (n : Int) : DenotesWhole (.number (.int n)) n
  | yes : DenotesWhole (.bool true) 1
  | no : DenotesWhole (.bool false) 0
  | text {s : String} {inner : List Char} {n : Int} (wraps : Text.Wraps inner s.toList)
      (spells : Text.SpellsWhole inner n) : DenotesWhole (.string s) n

/-- The value denotes a whole number from `least` to the greatest signed 64-bit number. -/
def DenotesFrom (least : Int) (v : Json) (n : Int) : Prop :=
  v.DenotesWhole n ∧ least ≤ n ∧ n ≤ 2 ^ 63 - 1

theorem toWhole?_eq_some_iff {v : Json} (noFloat : ∀ x, v ≠ .number (.float x)) {n : Int} :
    v.toWhole? = some n ↔ v.DenotesWhole n ∧ Word.Signed n := by
  constructor
  · intro h
    cases v with
    | number x =>
        cases x with
        | int m =>
            obtain ⟨hsigned, heq⟩ := Option.ite_none_right_eq_some.1 h
            cases heq
            exact ⟨.number _, hsigned⟩
        | float x => exact absurd rfl (noFloat x)
    | bool b =>
        cases h
        cases b
        · exact ⟨.no, by decide⟩
        · exact ⟨.yes, by decide⟩
    | string s =>
        obtain ⟨⟨inner, hwraps, hspells⟩, hsigned⟩ := Text.signed?_trimChars_eq_some_iff.1 h
        exact ⟨.text hwraps hspells, hsigned⟩
    | _ => cases h
  · rintro ⟨hdenotes, hsigned⟩
    cases hdenotes with
    | number => exact if_pos hsigned
    | yes | no => rfl
    | text hwraps hspells =>
        exact Text.signed?_trimChars_eq_some_iff.2 ⟨⟨_, hwraps, hspells⟩, hsigned⟩

/-- Where the least value is not negative, such a number is a signed one. -/
theorem DenotesFrom.signed {v : Json} {least n : Int} (h : v.DenotesFrom least n)
    (nonneg : 0 ≤ least) : Word.Signed n := by
  obtain ⟨-, hleast, hgreatest⟩ := h
  unfold Word.Signed Word.minSigned Word.maxSigned
  omega

end Json

namespace Rule

variable {v : Json} {least : Int} (noFloat : ∀ x, v ≠ .number (.float x))
  (deployment : Deployment) (message : String)
include noFloat

/-- A value that denotes a whole number in the range becomes that number. -/
theorem normalize_of_denotesFrom (nonneg : 0 ≤ least) {n : Int} (h : v.DenotesFrom least n) :
    (Rule.wholeNumber least message).normalize deployment v = pure (.ofInt n) := by
  rw [normalize, (Json.toWhole?_eq_some_iff noFloat).2 ⟨h.1, h.signed nonneg⟩]
  exact if_pos h.2.1

/-- Every other value is rejected. -/
theorem normalize_of_not_denotesFrom (h : ¬ ∃ n, v.DenotesFrom least n) :
    (Rule.wholeNumber least message).normalize deployment v = .fail (.invalidValue message) := by
  rw [normalize]
  cases hwhole : v.toWhole? with
  | none => rfl
  | some n =>
      obtain ⟨hdenotes, -, hgreatest⟩ := (Json.toWhole?_eq_some_iff noFloat).1 hwhole
      have hless : ¬ least ≤ n := by
        intro hleast
        unfold Word.maxSigned at hgreatest
        exact h ⟨n, hdenotes, hleast, by omega⟩
      exact if_neg hless

end Rule

/-! ## The settings -/

namespace Service

/-- The core settings that are whole numbers, with the least value of each and with what is said
about all values that it does not take. -/
def wholeNumberSettings : List (CoreKey × Int × String) :=
  [(.cookieLifetime, 1, "Cookie lifetime must be an integer > 0."),
    (.smtpPort, 1, "SMTP port must be an integer > 0."),
    (.uploadMinimumChunkSize, 0, "Upload minimum chunk size must be an integer >= 0.")]

theorem rule_of_mem_wholeNumberSettings {key : CoreKey} {least : Int} {message : String}
    (h : (key, least, message) ∈ wholeNumberSettings) :
    key.rule = .wholeNumber least message ∧ 0 ≤ least := by
  simp only [wholeNumberSettings, List.mem_cons, List.not_mem_nil, or_false, Prod.mk.injEq] at h
  rcases h with ⟨rfl, rfl, rfl⟩ | ⟨rfl, rfl, rfl⟩ | ⟨rfl, rfl, rfl⟩ <;> exact ⟨rfl, by decide⟩

section Settings

variable {store : Store} {service : Service} {key : CoreKey} {least : Int} {message : String}
  (listed : (key, least, message) ∈ wholeNumberSettings) {deployment : Deployment}
  (registered : service.registry.handler? key.name = some (.core key deployment)) {v : Json}
  (noFloat : ∀ x, v ≠ .number (.float x))
include listed registered noFloat

theorem run_validate_of_denotesFrom {n : Int} (h : v.DenotesFrom least n) (id : Option Int)
    (faults : Faults) (state : store.State) :
    (service.validate ⟨id, key.name, v⟩).run store.backend faults state
      = (.ok ⟨id, key.name, .number (.int n)⟩, state) := by
  obtain ⟨hrule, hnonneg⟩ := rule_of_mem_wholeNumberSettings listed
  rw [run_validate_core registered rfl, hrule]
  dsimp only
  rw [Rule.normalize_of_denotesFrom noFloat deployment message hnonneg h]
  rfl

theorem run_validate_of_not_denotesFrom (h : ¬ ∃ n, v.DenotesFrom least n) (id : Option Int)
    (faults : Faults) (state : store.State) :
    (service.validate ⟨id, key.name, v⟩).run store.backend faults state
      = (.error (.invalid ⟨"value", message⟩), state) := by
  rw [run_validate_core registered rfl, (rule_of_mem_wholeNumberSettings listed).1]
  dsimp only
  rw [Rule.normalize_of_not_denotesFrom noFloat deployment message h]
  rfl

theorem denotesFrom_of_validate {id : Option Int} {faults : Faults} {state : store.State}
    {s' : Setting}
    (accepted : ((service.validate ⟨id, key.name, v⟩).run store.backend faults state).1 = .ok s') :
    ∃ n, v.DenotesFrom least n ∧ s' = ⟨id, key.name, .number (.int n)⟩ := by
  by_cases h : ∃ n, v.DenotesFrom least n
  · obtain ⟨n, hn⟩ := h
    rw [run_validate_of_denotesFrom listed registered noFloat hn] at accepted
    exact ⟨n, hn, (Except.ok.inj accepted).symm⟩
  · rw [run_validate_of_not_denotesFrom listed registered noFloat h] at accepted
    cases accepted

end Settings

/-- A setting that is a whole number takes exactly the values that denote one from its least
value to the greatest signed 64-bit number, and stores the number; every other value is rejected
with one message. Over either store, whatever is stored and whichever calls fail: a value that is
no binary64 number is accepted exactly if it denotes such a number, which is then the value. And
if from an attainable state the value is set, the number is read back. -/
theorem whole_number_settings (store : Store) (service : Service) {key : CoreKey} {least : Int}
    {message : String} (listed : (key, least, message) ∈ wholeNumberSettings)
    {deployment : Deployment}
    (registered : service.registry.handler? key.name = some (.core key deployment)) {v : Json}
    (noFloat : ∀ x, v ≠ .number (.float x)) (state : store.State) (faults : Faults) :
    (∀ id s', (service.validate ⟨id, key.name, v⟩).run store.backend faults state
        = (.ok s', state) ↔
      ∃ n, v.DenotesFrom least n ∧ s' = ⟨id, key.name, .number (.int n)⟩) ∧
    (∀ id, (¬ ∃ n, v.DenotesFrom least n) →
      (service.validate ⟨id, key.name, v⟩).run store.backend faults state
        = (.error (.invalid ⟨"value", message⟩), state)) ∧
    (store.Attainable state → ∀ s after,
      (service.set key.name v).run store.backend faults state = (.ok s, after) →
      ∃ n, v.DenotesFrom least n ∧ s.value = .number (.int n) ∧
        (service.getInt key.name).run store.backend Faults.none after
          = (.ok (some n), after)) := by
  refine ⟨fun id s' => ⟨fun h => ?_, ?_⟩, fun id hnone => ?_, fun attainable s after hset => ?_⟩
  · exact denotesFrom_of_validate listed registered noFloat (congrArg Prod.fst h)
  · rintro ⟨n, hn, rfl⟩
    exact run_validate_of_denotesFrom listed registered noFloat hn id faults state
  · exact run_validate_of_not_denotesFrom listed registered noFloat hnone id faults state
  · have haccepted := ends_set_accepted attainable.orderly service key.name v faults
    have hfound := ends_set_found attainable.orderly service key.name v faults
    rw [hset] at haccepted hfound
    obtain ⟨id, ⟨faults', hvalid⟩, -⟩ := haccepted s rfl
    obtain ⟨n, hn, hs⟩ := denotesFrom_of_validate listed registered noFloat hvalid
    have hvalue : s.value = .number (.int n) := congrArg Setting.value hs
    have hsigned : Word.Signed n := hn.signed (rule_of_mem_wholeNumberSettings listed).2
    have hkept : store.readBack s.value = .number (.int n) := by
      rw [hvalue]
      exact store.readBack_of_storable (Json.storable_ofInt hsigned)
    refine ⟨n, hn, hvalue, ?_⟩
    rw [run_none_getInt, effective, Contents.of, (hfound s rfl).2, hkept]
    simp [intOf, Json.signed?, Number.signed?, hsigned]

/-- A port that is written with a sign, leading zeros and blanks around it, and a lifetime that is
too great for a signed number. -/
theorem whole_number_settings_of_spelled :
    let port : Json := .string "\u3000+0042\n"
    (∃ after, (coreService.set CoreKey.smtpPort.name port).run Table.backend Faults.none Table.empty
        = (.ok ⟨1, CoreKey.smtpPort.name, .number (.int 42)⟩, after) ∧
      (coreService.getInt CoreKey.smtpPort.name).run Table.backend Faults.none after
        = (.ok (some 42), after)) ∧
    (coreService.validate ⟨none, CoreKey.cookieLifetime.name, .number (.int (2 ^ 63))⟩).run
        Table.backend Faults.none Table.empty
      = (.error (.invalid ⟨"value", "Cookie lifetime must be an integer > 0."⟩), Table.empty) := by
  intro port
  have hport : coreService.registry.handler? CoreKey.smtpPort.name
      = some (.core .smtpPort ⟨Catalog.empty, none⟩) :=
    Registry.handler?_of_registerCore rfl .smtpPort
  have hportListed : (CoreKey.smtpPort, (1 : Int), "SMTP port must be an integer > 0.")
      ∈ wholeNumberSettings := by decide
  have hlifetime : coreService.registry.handler? CoreKey.cookieLifetime.name
      = some (.core .cookieLifetime ⟨Catalog.empty, none⟩) :=
    Registry.handler?_of_registerCore rfl .cookieLifetime
  have hlifetimeListed : (CoreKey.cookieLifetime, (1 : Int),
      "Cookie lifetime must be an integer > 0.") ∈ wholeNumberSettings := by decide
  constructor
  · have hset : (coreService.set CoreKey.smtpPort.name port).run Table.backend Faults.none
        Table.empty = (.ok ⟨1, CoreKey.smtpPort.name, .number (.int 42)⟩,
          { Table.empty with
            rows := [⟨1, CoreKey.smtpPort.name, some "42"⟩], highest := 1 }) := by
      rfl
    obtain ⟨-, -, hread⟩ := whole_number_settings .table coreService hportListed hport
      (v := port) (by simp [port]) Table.empty Faults.none
    obtain ⟨n, -, hvalue, hint⟩ := hread .empty _ _ hset
    cases hvalue
    exact ⟨_, hset, hint⟩
  · obtain ⟨-, hrejected, -⟩ := whole_number_settings .table coreService hlifetimeListed
      hlifetime (v := .number (.int (2 ^ 63))) (fun x h => by cases h) Table.empty Faults.none
    refine hrejected none ?_
    rintro ⟨n, hdenotes, -, hgreatest⟩
    cases hdenotes
    omega

end Service

end SettingStore
