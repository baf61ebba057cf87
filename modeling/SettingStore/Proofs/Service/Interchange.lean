import SettingStore.Proofs.Service.Call
import SettingStore.Proofs.Service.Durable
import SettingStore.Proofs.Session.InStep
import SettingStore.Proofs.Store.Mirror

set_option autoImplicit false

/-! # The two stores are interchangeable

Under the service it makes no difference which of the two stores is there. Over a store in
memory and a table that mirrors it, every call of the service makes the same requests of both,
whichever of them fail, and leaves a table that mirrors the store in memory (`inStep_call`).
So the replies of every run are the same, and so are the documents in the end
(`replies_same_over_both_stores`).
-/

namespace SettingStore

open Session
open Document (find?)

namespace Service

variable {m : Memory} {t : Table}

/-! ## Sessions over both stores -/

/-- Over both stores the sessions are in step, have the same outcome, and leave a table that
mirrors the store in memory. -/
abbrev Alike {α : Type} (s s' : Session α) (m : Memory) (t : Table) : Prop :=
  InStep Memory.backend Table.backend (SameEnd Mirrors) s s' m t

theorem alike_done {α : Type} (h : Mirrors m t) (outcome : Except Error α) :
    Alike (.done outcome) (.done outcome) m t :=
  .done ⟨rfl, h⟩

/-- A request that both stores answer alike. -/
theorem alike_call (h : Mirrors m t) {request : Request}
    (hanswer : (Memory.backend.answer m request).1 = (Table.backend.answer t request).1)
    (hstates : Mirrors (Memory.backend.answer m request).2 (Table.backend.answer t request).2) :
    Alike (call request) (call request) m t :=
  .ask (alike_done h _) (.done ⟨hanswer, hstates⟩)

theorem alike_find (h : Mirrors m t) (key : String) :
    Alike (call (.findSetting key)) (call (.findSetting key)) m t := by
  refine alike_call h ?_ h
  show Except.ok (find? key m.documents) = Except.ok (find? key t.documents)
  rw [h.documents]

theorem alike_listSettings (h : Mirrors m t) (filter : Filter) :
    Alike (call (.listSettings filter)) (call (.listSettings filter)) m t := by
  refine alike_call h ?_ h
  show Except.ok (Document.list filter m.documents) = Except.ok (Document.list filter t.documents)
  rw [h.documents]

theorem alike_get (h : Mirrors m t) (service : Service) (key : String) :
    Alike (service.get key) (service.get key) m t := by
  refine (alike_find h key).bind_same fun found a b hab => ?_
  cases found with
  | none => exact alike_done hab _
  | some d => exact alike_done hab _

/-- A value that was read goes on to an outcome. -/
theorem alike_get_bind {α : Type} (h : Mirrors m t) (service : Service) (key : String)
    {next : Json → Session α} (hnext : ∀ v, ∃ outcome, next v = .done outcome) :
    Alike (service.get key >>= next) (service.get key >>= next) m t := by
  refine (alike_get h service key).bind_same fun v a b hab => ?_
  obtain ⟨outcome, hv⟩ := hnext v
  rw [hv]
  exact alike_done hab outcome

/-! ## Removing -/

theorem alike_removeAll (h : Mirrors m t) (docs : List Document) :
    Alike (removeAll docs) (removeAll docs) m t := by
  induction docs generalizing m t with
  | nil => exact alike_done h _
  | cons d rest ih =>
      have hcall : Alike (call (.removeSetting d.id)) (call (.removeSetting d.id)) m t :=
        alike_call h rfl (h.remove d.id)
      exact hcall.bind_same fun _ a b hab => ih hab

theorem alike_removeExtra (h : Mirrors m t) (ids : List Int) :
    Alike (removeExtra ids) (removeExtra ids) m t := by
  induction ids generalizing m t with
  | nil => exact alike_done h _
  | cons id rest ih => exact .ask (ih h) (ih (h.remove id))

/-! ## Making sure of the unique index -/

/-- In which order the ids of a key are reported does not matter to which are removed. -/
theorem extras_groups_of_perm (keys : List String) {ids ids' : String → List Int}
    (held : ∀ key, (ids key).Perm (ids' key)) :
    extras (Document.groups keys ids) = extras (Document.groups keys ids') := by
  have hlength : ∀ key, (ids key).length = (ids' key).length := fun key => (held key).length_eq
  unfold extras Document.groups
  rw [List.flatMap_map, List.flatMap_map]
  simp only [hlength]
  refine List.flatMap_congr fun key _ => ?_
  exact congrArg (List.drop 1) (Ordered.sort_ids_eq_of_perm (held key))

/-- The ids of a repeated key are reported in another order, but the same are removed. -/
theorem extras_duplicates (h : Mirrors m t) :
    ∃ groups, t.duplicates = .ok groups ∧ extras groups = extras m.duplicates := by
  have hkeys : t.keys = m.keys := by
    unfold Table.keys Memory.keys
    rw [← h.documents, Table.documents, List.map_map]
    rfl
  refine ⟨_, Table.duplicates_eq_ok h.table.orderly, ?_⟩
  rw [Memory.duplicates_eq, hkeys]
  refine extras_groups_of_perm m.keys fun key => ?_
  rw [← Table.ids_documents, h.documents]
  exact (m.ids_reverse_perm key).symm

/-- Without an index that was listed, a repair goes the same way over both stores. -/
theorem alike_repair (h : Mirrors m t) : Alike (repair []) (repair []) m t := by
  obtain ⟨groups, hgroups, hextras⟩ := extras_duplicates h
  refine .ask (alike_done h _) ?_
  show Alike (removeDuplicates m.duplicates >>= fun _ => call (.createIndex keyField true))
    ((.done t.duplicates : Session (List DuplicateGroup)) >>= fun groups =>
      removeDuplicates groups >>= fun _ => call (.createIndex keyField true)) m t
  rw [hgroups]
  show Alike (removeDuplicates m.duplicates >>= fun _ => call (.createIndex keyField true))
    (removeDuplicates groups >>= fun _ => call (.createIndex keyField true)) m t
  rw [removeDuplicates_eq, removeDuplicates_eq, hextras]
  refine (alike_removeExtra h _).bind_same fun _ a b hab => ?_
  exact alike_call hab hab.createIndex.1 hab.createIndex.2

/-- The indexes that are listed are not the same, but in both stores they make the key unique
or there are none. -/
theorem alike_reconnect (h : Mirrors m t) : Alike reconnect reconnect m t := by
  rw [reconnect_eq]
  refine .ask (alike_repair h) ?_
  show Alike (if m.indexes.any (·.isUniqueOn keyField) then pure () else repair m.indexes)
    (if (t.indexes.map (·.report)).any (·.isUniqueOn keyField) then pure ()
      else repair (t.indexes.map (·.report))) m t
  have hreported : (t.indexes.map (·.report)).any (·.isUniqueOn keyField) = m.keyUnique := by
    rw [h.indexed, Table.hasUniqueKey, List.any_map]
    rfl
  rw [hreported]
  by_cases hunique : m.keyUnique = true
  · rw [if_pos hunique]
    rw [Memory.keyUnique] at hunique
    rw [if_pos hunique]
    exact alike_done h _
  · obtain ⟨hm, ht⟩ := h.indexes_eq_nil hunique
    rw [if_neg hunique, hm, ht]
    exact alike_repair h

/-! ## Normalizing and saving -/

/-- A setting is normalized alike, with the same calls and to the same value. -/
theorem inStep_validate {α : Type} {post : Except Error α × Memory → Except Error α × Table → Prop}
    (h : Mirrors m t) (service : Service) (s : Setting) {next : Setting → Session α}
    (hnext : ∀ w, InStep Memory.backend Table.backend post (next { s with value := w })
      (next { s with value := w }) m t)
    (herror : ∀ e, post (.error e, m) (.error e, t)) :
    InStep Memory.backend Table.backend post (service.validate s >>= next)
      (service.validate s >>= next) m t := by
  rw [validate]
  cases service.registry.handler? s.key with
  | none => exact .done (herror _)
  | some handler =>
      have hsame := (handler.looksUp_normalize s).inStep (Store.knows .memory m)
        (Store.knows .table t) h.entities
      dsimp only
      rw [bind_assoc']
      refine hsame.bind ?_ ?_
      · rintro w _ _ ⟨rfl, rfl⟩
        exact hnext w
      · rintro e _ _ ⟨rfl, rfl⟩
        exact herror e

/-- The ends are the same, provided that a table could hold what is stored in the end. -/
def SameIfFits {α : Type} (x : Except Error α × Memory) (y : Except Error α × Table) : Prop :=
  x.2.Fits → SameEnd Mirrors x y

/-- Both stores save a normalized setting alike, if they would with any value. -/
theorem inStep_save (h : Mirrors m t) (service : Service) (s : Setting)
    (hsave : ∀ w, (m.save { s with value := w }).2.Fits →
      ∃ t', t.save { s with value := w } = (.ok (m.save { s with value := w }).1, t') ∧
        Mirrors (m.save { s with value := w }).2 t') :
    InStep Memory.backend Table.backend SameIfFits
      (service.validate s >>= fun s => call (.saveSetting s))
      (service.validate s >>= fun s => call (.saveSetting s)) m t := by
  refine inStep_validate h service s (fun w => ?_) fun e _ => ⟨rfl, h⟩
  refine .ask (.done fun _ => ⟨rfl, h⟩) (.done fun fits => ?_)
  obtain ⟨t', htable, hmirrors⟩ := hsave w fits
  constructor
  · show Except.ok (m.save { s with value := w }).1 = (t.save { s with value := w }).1
    rw [htable]
  · show Mirrors (m.save { s with value := w }).2 (t.save { s with value := w }).2
    rw [htable]
    exact hmirrors

/-- A value is set in the same document of both stores, or in a new one with the same id. -/
theorem inStep_set (h : Mirrors m t) (service : Service) (key : String) (v : Json) :
    InStep Memory.backend Table.backend SameIfFits (service.set key v) (service.set key v) m t := by
  rw [set]
  have hfind : (Table.backend.answer t (.findSetting key)).1 = .ok (find? key m.documents) := by
    rw [← h.documents]
    rfl
  refine .ask (.done fun _ => ⟨rfl, h⟩) ?_
  rw [hfind]
  show InStep Memory.backend Table.backend SameIfFits
    ((.done (.ok (find? key m.documents)) : Session (Option Document)) >>= _)
    ((.done (.ok (find? key m.documents)) : Session (Option Document)) >>= _) m t
  cases hfound : find? key m.documents with
  | none =>
      refine inStep_save h service ⟨none, key, v⟩ fun w fits => ?_
      exact h.save_new rfl (fun _ => Document.find?_eq_none_iff.1 hfound) fits
  | some d =>
      refine inStep_save h service ⟨some d.id, d.key, v⟩ fun w fits => ?_
      exact h.save_of_id (Document.find?_spec hfound).1 rfl rfl fits

/-! ## Calls and runs -/

/-- Every call of the service goes the same way over both stores. -/
theorem inStep_call (h : Mirrors m t) (service : Service) (call : Call) :
    InStep Memory.backend Table.backend SameIfFits (call.session service)
      (call.session service) m t := by
  have halike : ∀ {α : Type} {s : Session α}, Alike s s m t →
      InStep Memory.backend Table.backend SameIfFits s s m t :=
    fun hs => hs.imp fun _ _ hend _ => hend
  cases call with
  | connect => exact halike ((alike_reconnect h).bind_same fun _ a b hab => alike_done hab _)
  | reconnect => exact halike (alike_reconnect h)
  | get key => exact halike (alike_get h service key)
  | getOr key otherwise =>
      refine halike ((alike_find h key).bind_same fun found a b hab => ?_)
      cases found with
      | none => exact alike_done hab _
      | some d => exact alike_done hab _
  | getString key =>
      refine halike (alike_get_bind h service key fun v => ?_)
      cases v <;> exact ⟨_, rfl⟩
  | getInt key =>
      refine halike (alike_get_bind h service key fun v => ?_)
      cases v with
      | number n =>
          dsimp only
          cases (Json.number n).signed? <;> exact ⟨_, rfl⟩
      | _ => exact ⟨_, rfl⟩
  | getBool key =>
      refine halike (alike_get_bind h service key fun v => ?_)
      cases v <;> exact ⟨_, rfl⟩
  | defaultValue key => exact halike (alike_done h _)
  | set key v => exact inStep_set h service key v
  | unset key =>
      refine halike ((alike_listSettings h _).bind_same fun docs a b hab => ?_)
      exact alike_removeAll hab docs
  | validate s =>
      show InStep _ _ _ (service.validate s) (service.validate s) m t
      rw [← bind_pure' (service.validate s)]
      exact halike (inStep_validate h service s (fun w => alike_done h _) fun e => ⟨rfl, h⟩)
  | list start => exact halike (alike_listSettings h _)

/-- As long as a table could hold what is stored, a run has the same replies over both stores
and leaves a table that mirrors the store in memory. -/
theorem serve_alike (h : Mirrors m t) (service : Service) (calls : List (Call × Faults))
    (fits : ∀ m' ∈ service.passes Memory.backend calls m, m'.Fits) :
    (service.serve Memory.backend calls m).1 = (service.serve Table.backend calls t).1 ∧
      Mirrors (service.serve Memory.backend calls m).2
        (service.serve Table.backend calls t).2 := by
  induction calls generalizing m t with
  | nil => exact ⟨rfl, h⟩
  | cons first rest ih =>
      obtain ⟨call, faults⟩ := first
      have hrest : ∀ m' ∈ service.passes Memory.backend rest
          ((call.session service).run Memory.backend faults m).2, m'.Fits := by
        intro m' hm'
        exact fits m' (List.mem_cons_of_mem _ hm')
      have hnext := hrest _ (mem_passes_self service Memory.backend rest _)
      obtain ⟨houtcome, hmirrors⟩ := (inStep_call h service call).run faults hnext
      obtain ⟨hreplies, hlast⟩ := ih hmirrors hrest
      rw [serve_cons, serve_cons, houtcome, hreplies]
      exact ⟨rfl, hlast⟩

/-! ## Where a run starts -/

/-- Created entities exist in both stores, and make no index. -/
theorem mirrors_createEntity (h : Mirrors m t) (entities : List Entity) :
    Mirrors (Memory.backend.after (entities.map .createEntity) m)
        (Table.backend.after (entities.map .createEntity) t) ∧
      (Memory.backend.after (entities.map .createEntity) m).indexes = m.indexes := by
  induction entities generalizing m t with
  | nil => exact ⟨h, rfl⟩
  | cons entity rest ih => exact ih (h.createEntity entity)

theorem not_keyUnique (hnone : m.indexes = []) : ¬ m.keyUnique = true := by
  rw [Memory.keyUnique, hnone]
  exact Bool.false_ne_true

/-- What fits after new documents were saved did so before. -/
theorem fits_of_after (hnone : m.indexes = []) (initial : List (String × Json))
    (fits : (Memory.backend.after (initial.map fun d => .saveSetting ⟨none, d.1, d.2⟩) m).Fits) :
    m.Fits := by
  induction initial generalizing m with
  | nil => exact fits
  | cons first rest ih =>
      have hnot : m.keyUnique = true → ∀ e ∈ m.documents, e.key ≠ first.1 := fun hunique =>
        absurd hunique (not_keyUnique hnone)
      have hinsert := Memory.save_new (s := ⟨none, first.1, first.2⟩) rfl hnot
      have hindexes : (m.save ⟨none, first.1, first.2⟩).2.indexes = [] := by
        rw [Memory.save_indexes, hnone]
      have hfirst := ih hindexes fits
      rw [hinsert] at hfirst
      constructor
      · intro d hd
        exact hfirst.storable d (List.mem_append_left _ hd)
      · have : m.lastId + 1 ≤ Word.maxSigned := hfirst.numbered
        omega

/-- Documents that are saved without an index get the same ids in both stores. -/
theorem mirrors_save (h : Mirrors m t) (hnone : m.indexes = []) (initial : List (String × Json))
    (fits : (Memory.backend.after (initial.map fun d => .saveSetting ⟨none, d.1, d.2⟩) m).Fits) :
    Mirrors (Memory.backend.after (initial.map fun d => .saveSetting ⟨none, d.1, d.2⟩) m)
      (Table.backend.after (initial.map fun d => .saveSetting ⟨none, d.1, d.2⟩) t) := by
  induction initial generalizing m t with
  | nil => exact h
  | cons first rest ih =>
      have hindexes : (m.save ⟨none, first.1, first.2⟩).2.indexes = [] := by
        rw [Memory.save_indexes, hnone]
      have hnot : m.keyUnique = true → ∀ e ∈ m.documents, e.key ≠ first.1 := fun hunique =>
        absurd hunique (not_keyUnique hnone)
      obtain ⟨t', htable, hmirrors⟩ := h.save_new (s := ⟨none, first.1, first.2⟩) rfl hnot
        (fits_of_after hindexes rest fits)
      have hnext := ih hmirrors hindexes fits
      have hstep : (Table.backend.answer t (.saveSetting ⟨none, first.1, first.2⟩)).2 = t' := by
        show (t.save ⟨none, first.1, first.2⟩).2 = t'
        rw [htable]
      rw [← hstep] at hnext
      exact hnext

/-- Over an empty store nothing that is put in before there is an index makes a difference. -/
theorem mirrors_setup (entities : List Entity) (initial : List (String × Json))
    (fits : (Memory.backend.after (setup entities initial) Memory.empty).Fits) :
    Mirrors (Memory.backend.after (setup entities initial) Memory.empty)
      (Table.backend.after (setup entities initial) Table.empty) := by
  obtain ⟨hcreated, hindexes⟩ := mirrors_createEntity Mirrors.empty entities
  unfold setup Backend.after at fits ⊢
  rw [List.foldl_append] at fits ⊢
  rw [List.foldl_append]
  exact mirrors_save hcreated hindexes initial fits

/-- The two stores are interchangeable. After the same entities and documents were put in
before there was an index, every run of calls has the same replies over both stores, whichever
requests of which calls fail, and there are the same documents in the end, ids included. This
takes that a table could hold what is stored: every value is one that its text denotes, and
there is a number for every document. -/
theorem replies_same_over_both_stores (registry : FrozenRegistry) (entities : List Entity)
    (initial : List (String × Json)) (calls : List (Call × Faults))
    (fits : ∀ m ∈ passes ⟨registry⟩ Memory.backend calls
      (Memory.backend.after (setup entities initial) Memory.empty), m.Fits) :
    let inMemory := serve ⟨registry⟩ Memory.backend calls
      (Memory.backend.after (setup entities initial) Memory.empty)
    let inTable := serve ⟨registry⟩ Table.backend calls
      (Table.backend.after (setup entities initial) Table.empty)
    inMemory.1 = inTable.1 ∧ inMemory.2.documents = inTable.2.documents := by
  have hfirst := fits _ (mem_passes_self ⟨registry⟩ Memory.backend calls _)
  have hmirrors := mirrors_setup entities initial hfirst
  obtain ⟨hreplies, hlast⟩ := serve_alike hmirrors ⟨registry⟩ calls fits
  exact ⟨hreplies, hlast.documents.symm⟩

/-! ## A run with a repair -/

theorem storable_nested {n : Nat} (h : n ≤ Json.maxDepth) : (nested n).Storable :=
  ⟨canonical_nested n, floatsReadBack_nested n, by rwa [depth_nested]⟩

/-- Two documents of one key. -/
def passwords : List (String × Json) := [(passwordKey, nested 0), (passwordKey, nested 1)]

/-- A repair that fails at its last request, one that does not fail, and a value as deep as the
reader allows. -/
def repairAndSet : List (Call × Faults) :=
  [(.reconnect, Faults.ofKinds [.createIndex]), (.connect, Faults.none),
    (.set passwordKey (nested 127), Faults.none)]

theorem passes_repairAndSet :
    coreService.passes Memory.backend repairAndSet
        (Memory.backend.after (setup [] passwords) Memory.empty)
      = [⟨[⟨1, passwordKey, nested 0⟩, ⟨2, passwordKey, nested 1⟩], [], [], 2, [], 0⟩,
        ⟨[⟨1, passwordKey, nested 0⟩], [], [], 2, [], 0⟩,
        ⟨[⟨1, passwordKey, nested 0⟩], [⟨"idx_settings_key", ["key"], true⟩], [], 2, [], 1⟩,
        ⟨[⟨1, passwordKey, nested 127⟩], [⟨"idx_settings_key", ["key"], true⟩], [], 2, [], 1⟩] := by
  rfl

theorem fits_repairAndSet : ∀ m ∈ coreService.passes Memory.backend repairAndSet
    (Memory.backend.after (setup [] passwords) Memory.empty), m.Fits := by
  -- In each of the four states the values are nested arrays.
  have hnested : ∀ {m : Memory}, (∀ d ∈ m.documents, ∃ n ≤ Json.maxDepth, d.value = nested n) →
      m.lastId = 2 → m.Fits := by
    intro m hvalues hlast
    refine ⟨fun d hd => ?_, ?_⟩
    · obtain ⟨n, hle, hvalue⟩ := hvalues d hd
      rw [hvalue]
      exact storable_nested hle
    · rw [hlast]
      decide
  rw [passes_repairAndSet]
  intro m hm
  simp only [List.mem_cons, List.not_mem_nil, or_false] at hm
  rcases hm with rfl | rfl | rfl | rfl
  all_goals refine hnested (fun d hd => ?_) rfl
  all_goals simp only [List.mem_cons, List.not_mem_nil, or_false] at hd
  · rcases hd with rfl | rfl
    · exact ⟨0, by decide, rfl⟩
    · exact ⟨1, by decide, rfl⟩
  · rw [hd]
    exact ⟨0, by decide, rfl⟩
  · rw [hd]
    exact ⟨0, by decide, rfl⟩
  · rw [hd]
    exact ⟨127, by decide, rfl⟩

/-- The table ends with the document that the store in memory ends with. -/
theorem replies_same_over_both_stores_of_repeated_key :
    (coreService.serve Memory.backend repairAndSet
        (Memory.backend.after (setup [] passwords) Memory.empty)).1
      = (coreService.serve Table.backend repairAndSet
          (Table.backend.after (setup [] passwords) Table.empty)).1 ∧
    (coreService.serve Table.backend repairAndSet
        (Table.backend.after (setup [] passwords) Table.empty)).2.documents
      = [⟨1, passwordKey, nested 127⟩] := by
  obtain ⟨hreplies, hdocs⟩ := replies_same_over_both_stores coreService.registry [] passwords
    repairAndSet fits_repairAndSet
  refine ⟨hreplies, ?_⟩
  calc
    _ = (coreService.serve Memory.backend repairAndSet
          (Memory.backend.after (setup [] passwords) Memory.empty)).2.documents := hdocs.symm
    _ = [⟨1, passwordKey, nested 127⟩] := rfl

end Service

end SettingStore
