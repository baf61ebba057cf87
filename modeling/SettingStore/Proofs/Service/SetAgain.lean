import SettingStore.Proofs.Core.Settled
import SettingStore.Proofs.Service.Contents
import SettingStore.Proofs.Service.Frame

set_option autoImplicit false

/-! # Setting a value again

What the service made of a value of a core key it accepts again, and a value that was set and is
set again stays as it is (`validate_again`). The one exception is a list of allowed origins in
which one entry is nothing but slashes and another is not: of the first a comma is left, which
the second time is left out (`validate_again_drops_comma`).
-/

namespace SettingStore

open Session
open Document (find? IdsIncrease)

/-! ## Saving again -/

namespace Memory

variable {m : Memory}

theorem replaceFirst_eq_self {p : Document → Bool} {change : Document → Document} {d : Document}
    {docs : List Document} (found : docs.find? p = some d) (same : change d = d) :
    replaceFirst p change docs = docs := by
  induction docs with
  | nil => rfl
  | cons first rest ih =>
      rw [List.find?_cons] at found
      rw [replaceFirst]
      cases hp : p first with
      | true =>
          rw [hp] at found
          cases found
          rw [if_pos rfl, same]
      | false =>
          rw [hp] at found
          rw [if_neg Bool.false_ne_true, ih found]

/-- Saving a document as it is stored changes nothing. -/
theorem save_same (orderly : m.Orderly) {d : Document} (hd : d ∈ m.documents) :
    m.save ⟨some d.id, d.key, d.value⟩ = (d, m) := by
  rcases find?_id_cases m.documents (some d.id) with ⟨e, hid, hfound⟩ | hnone
  · have he : e = d := orderly.ids.eq_of_id (List.mem_of_find?_eq_some hfound) hd
      (Option.some.inj hid).symm
    rw [he] at hfound
    simp only [save, update?, Option.bind_some, hfound, Option.map_some,
      replaceFirst_eq_self hfound]
  · exact absurd rfl (hnone d hd)

end Memory

namespace Table

variable {t : Table}

theorem putRow_eq_self {row : Row} {rows : List Row}
    (sorted : rows.Pairwise fun a b => a.id < b.id) (hrow : row ∈ rows) :
    putRow row rows = rows := by
  induction rows with
  | nil => exact absurd hrow List.not_mem_nil
  | cons first rest ih =>
      obtain ⟨hfirst, hrest⟩ := List.pairwise_cons.1 sorted
      rw [putRow]
      rcases List.mem_cons.1 hrow with rfl | hmem
      · rw [if_pos rfl]
      · have hlt := hfirst row hmem
        rw [if_neg (by omega), if_neg (by omega), ih hrest hmem]

/-- Saving a value whose text is stored in the row changes nothing. -/
theorem save_same (orderly : t.Orderly) {id : Int} {key : String} {v : Json}
    (hrow : ⟨id, key, some v.text⟩ ∈ t.rows) :
    t.save ⟨some id, key, v⟩ = (.ok ⟨id, key, v⟩, t) := by
  have hbound : id ≤ t.highest := orderly.bounded _ hrow
  have hkept : t.withRows? t.rows t.highest = some t :=
    withRows?_eq_some_iff.2 ⟨orderly.respected, rfl⟩
  have hsigned : Word.Signed id := orderly.signed _ hrow
  rw [save]
  dsimp only
  rw [put?, if_pos hsigned, putRow_eq_self orderly.sorted hrow, Int.max_eq_left hbound, hkept]
  rfl

end Table

namespace Store

variable {store : Store} {state after : store.State}

/-- What was saved can be saved again in the document that it was saved in, and nothing
changes. -/
theorem answer_saveSetting_again (orderly : store.Orderly state) {s : Setting} {saved : Document}
    (h : store.backend.answer state (.saveSetting s) = (.ok saved, after)) :
    store.backend.answer after (.saveSetting ⟨some saved.id, saved.key, saved.value⟩)
      = (.ok saved, after) := by
  have horderly := orderly_answer orderly (.saveSetting s)
  rw [h] at horderly
  cases store with
  | memory =>
      have hsaved : (Memory.save state s).1 = saved := Except.ok.inj (congrArg Prod.fst h)
      have hafter : (Memory.save state s).2 = after := congrArg Prod.snd h
      have hmem : saved ∈ Memory.documents after := by
        rw [← hafter]
        exact (Memory.mem_save orderly s).2 (Or.inl hsaved.symm)
      show ((Except.ok (Memory.save after _).1, (Memory.save after _).2) :
        Except Error Document × Memory) = _
      rw [Memory.save_same horderly hmem]
  | table =>
      rcases Table.save_cases orderly s with hfailed | ⟨id, t', -, hputs, hsaved⟩
      · have := hfailed.symm.trans h
        cases this
      · have := hsaved.symm.trans h
        cases this
        refine Table.save_same horderly ?_
        rw [hputs.others]
        exact (Table.mem_putRow (Table.Orderly.sorted orderly)).2 (Or.inl rfl)

end Store

/-! ## Validating again -/

namespace Service

section Registered

variable {store : Store} {state : store.State} {service : Service} {key : CoreKey}
  {deployment : Deployment}
  (registered : service.registry.handler? key.name = some (.core key deployment))
include registered

/-- A value that was accepted in one state is accepted in every state with the same entities,
under whatever id. -/
theorem run_none_validate_again {after : store.State}
    (same : store.entity? after = store.entity? state) {s s' : Setting} (hkey : s.key = key.name)
    {faults : Faults}
    (accepted : ((service.validate s).run store.backend faults state).1 = .ok s')
    (id : Option Int) :
    ∃ w, (service.validate ⟨id, key.name, s'.value⟩).run store.backend Faults.none after
        = (.ok ⟨id, key.name, w⟩, after) ∧
      (w = s'.value ↔ ¬ key.SlashesBesides s.value) := by
  obtain ⟨v, hnormal, rfl⟩ := normalized_of_validate registered hkey accepted
  have knows' : store.backend.Knows after (store.entity? state) := by
    rw [← same]
    exact Store.knows store after
  obtain ⟨w, hrun, hsame⟩ := Rule.normalize_again (Store.knows store state) knows'
    (Rule.proper_core key) hnormal
  refine ⟨w, ?_, ?_⟩
  · rw [run_validate_core registered rfl]
    dsimp only
    rw [hrun]
    rfl
  · rw [hsame, CoreKey.skipsSome_iff]

/-! ## Setting again -/

/-- A value that was set is set again, with the same answer and without a change. -/
theorem run_none_set_again (orderly : store.Orderly state) {v : Json} {faults : Faults}
    {d : Document} {after : store.State}
    (h : (service.set key.name v).run store.backend faults state = (.ok d, after))
    (keeps : ¬ key.SlashesBesides v) :
    (service.set key.name d.value).run store.backend Faults.none after = (.ok d, after) := by
  have hends := ends_set_accepted orderly service key.name v faults
  have hfound := ends_set_found orderly service key.name v faults
  rw [h] at hends hfound
  obtain ⟨id, ⟨faults', accepted⟩, hsave⟩ := hends d rfl
  obtain ⟨hkey, hfind⟩ := hfound d rfl
  have hentities : store.entity? after = store.entity? state := by
    have hsame := Store.entity?_answer orderly (.saveSetting ⟨id, key.name, d.value⟩)
      fun _ heq => by cases heq
    rwa [hsave] at hsame
  obtain ⟨w', hvalidate, hsame⟩ :=
    run_none_validate_again registered hentities rfl accepted (some d.id)
  have hagain := Store.answer_saveSetting_again orderly hsave
  rw [hsame.2 keeps] at hvalidate
  rw [hkey] at hagain
  -- What is found has the id under which the value was saved.
  rw [set, run_none_find, hfind]
  dsimp only
  rw [run_none_bind, hvalidate]
  dsimp only
  rw [call, run_none_ask, hagain]
  rfl

end Registered

/-- What the service makes of a value of a core key it accepts again, and it stays as it is,
but for the comma that an origin of nothing but slashes has left. Over either store and
whatever entities there are: the value that was answered is accepted, and it is answered
unchanged exactly if no allowed origin was nothing but slashes beside one that was not. So, from
every attainable state and whichever calls failed, what was set is read if the store can keep
it, and, with this exception, setting it again succeeds, answers the same document and changes
nothing. -/
theorem validate_again (store : Store) {state : store.State} (service : Service) {key : CoreKey}
    {deployment : Deployment}
    (registered : service.registry.handler? key.name = some (.core key deployment)) :
    (∀ (s s' : Setting) (faults : Faults), s.key = key.name →
      ((service.validate s).run store.backend faults state).1 = .ok s' →
      ∃ w, (service.validate s').run store.backend Faults.none state
          = (.ok { s' with value := w }, state) ∧
        (w = s'.value ↔ ¬ key.SlashesBesides s.value)) ∧
    (store.Attainable state → ∀ (v : Json) (faults : Faults) (d : Document) (after : store.State),
      (service.set key.name v).run store.backend faults state = (.ok d, after) →
      store.readBack d.value = d.value →
      (service.get key.name).run store.backend Faults.none after = (.ok d.value, after) ∧
        (¬ key.SlashesBesides v →
          (service.set key.name d.value).run store.backend Faults.none after
            = (.ok d, after))) := by
  constructor
  · intro s s' faults hkey accepted
    have hkey' : s'.key = key.name :=
      ((ends_validate store state service s faults).2 s' accepted).2.trans hkey
    obtain ⟨w, hrun, hsame⟩ := run_none_validate_again registered rfl hkey accepted s'.id
    rw [← hkey'] at hrun
    exact ⟨w, hrun, hsame⟩
  · intro attainable v faults d after hset kept
    have hfound := ends_set_found attainable.orderly service key.name v faults
    rw [hset] at hfound
    obtain ⟨-, hfind⟩ := hfound d rfl
    refine ⟨?_, run_none_set_again registered attainable.orderly hset⟩
    rw [get, run_none_find, hfind, kept]
    rfl

theorem run_none_set_methods (s : String) :
    (coreService.set CoreKey.corsAllowMethods.name (.string s)).run Memory.backend Faults.none
        Memory.empty
      = (.ok ⟨1, CoreKey.corsAllowMethods.name, .string (Text.normalEntries Text.upperCase s)⟩,
        ⟨[⟨1, CoreKey.corsAllowMethods.name, .string (Text.normalEntries Text.upperCase s)⟩],
          [], [], 1, [], 0⟩) := by
  rfl

/-- Methods that were set in small letters are set again in capital ones. -/
theorem validate_again_of_methods :
    let key := CoreKey.corsAllowMethods.name
    let after : Memory := ⟨[⟨1, key, .string "GET, POST"⟩], [], [], 1, [], 0⟩
    (coreService.set key (.string "get,post get")).run Memory.backend Faults.none Memory.empty
        = (.ok ⟨1, key, .string "GET, POST"⟩, after) ∧
      (coreService.set key (.string "GET, POST")).run Memory.backend Faults.none after
        = (.ok ⟨1, key, .string "GET, POST"⟩, after) := by
  have hnormal : Text.normalEntries Text.upperCase "get,post get" = "GET, POST" := by
    decide +kernel
  have hset := run_none_set_methods "get,post get"
  rw [hnormal] at hset
  have registered : coreService.registry.handler? CoreKey.corsAllowMethods.name
      = some (.core .corsAllowMethods ⟨Catalog.empty, none⟩) :=
    Registry.handler?_of_registerCore rfl .corsAllowMethods
  have hagain := (validate_again .memory coreService registered).2
    .empty (.string "get,post get") Faults.none _ _ hset rfl
  exact ⟨hset, hagain.2 fun h => by cases h.1⟩

/-- Of an origin that is nothing but slashes a comma is left, and it is lost when the answer is
validated again. -/
theorem validate_again_drops_comma :
    let key := CoreKey.corsAllowOrigin.name
    (coreService.validate ⟨none, key, .string "/,https://a.example"⟩).run Memory.backend
        Faults.none Memory.empty
      = (.ok ⟨none, key, .string ", https://a.example"⟩, Memory.empty) ∧
    (coreService.validate ⟨none, key, .string ", https://a.example"⟩).run Memory.backend
        Faults.none Memory.empty
      = (.ok ⟨none, key, .string "https://a.example"⟩, Memory.empty) ∧
    Json.string "https://a.example" ≠ .string ", https://a.example" := by
  have hfirst : Text.normalEntries Text.dropSlashes "/,https://a.example"
      = ", https://a.example" := by
    decide +kernel
  have hsecond : Text.normalEntries Text.dropSlashes ", https://a.example"
      = "https://a.example" := by
    decide +kernel
  have hvalidate : ∀ s, (coreService.validate ⟨none, CoreKey.corsAllowOrigin.name,
      .string s⟩).run Memory.backend Faults.none Memory.empty
        = (.ok ⟨none, CoreKey.corsAllowOrigin.name,
          .string (Text.normalEntries Text.dropSlashes s)⟩, Memory.empty) := fun s => rfl
  refine ⟨?_, ?_, by decide⟩
  · rw [hvalidate, hfirst]
  · rw [hvalidate, hsecond]

end Service

end SettingStore
