import SettingStore.Proofs.Service.Steady
import SettingStore.Proofs.Store.Mirror

set_option autoImplicit false

/-! # Calls that interleave

Any number of clients make calls to the same store, and between two requests of one of them
the others may make requests of theirs, as a schedule tells (`Interleaving`). No request is
made to fail. The key stays unique at every moment (`Interleaving.allSteady`), and a `set`
that gets its turns ends as `last_write_wins` says: over the store in memory every value that
its handler accepts is stored, over a table every one but those of `Table.Refuses`. One of
these is `set_fails_of_removed`: the document that was found is removed and stored anew by
others before it is saved.
-/

namespace SettingStore

open Session
open Document (KeysDistinct find?)

namespace Service

variable {store : Store}

/-! ## Clients and their turns -/

/-- A call with what is left of it to do. -/
structure Client where
  call : Call
  left : Session call.Answer

/-- Calls to one store, each to a service of its own, the client whose turn is next, and the
state in which all of them begin. -/
structure Interleaving (store : Store) where
  calls : List (Service × Call)
  schedule : Nat → Nat
  start : store.State

namespace Interleaving

/-- In its turn a client makes its next request. -/
def turn (i : Nat) (clients : List Client) (state : store.State) : List Client × store.State :=
  match clients[i]? with
  | none => (clients, state)
  | some ⟨call, left⟩ =>
      let next := left.step store.backend (fun _ => false) state
      (clients.set i ⟨call, next.1⟩, next.2)

/-- The clients and the state after some turns. -/
def moment (r : Interleaving store) : Nat → List Client × store.State
  | 0 => (r.calls.map fun c => ⟨c.2, c.2.session c.1⟩, r.start)
  | n + 1 => turn (r.schedule n) (r.moment n).1 (r.moment n).2

/-- The clients after some turns. -/
def clients (r : Interleaving store) (n : Nat) : List Client := (r.moment n).1

/-- The state after some turns. -/
def state (r : Interleaving store) (n : Nat) : store.State := (r.moment n).2

/-! ## The key stays unique -/

/-- The key is unique, and all clients keep it so. -/
structure AllSteady (clients : List Client) (state : store.State) : Prop where
  guarded : Guarded store state
  steady : ∀ (i : Nat) (c : Client), clients[i]? = some c → Steady store c.left state

/-- One turn leaves the key unique and leads onward. -/
theorem AllSteady.turn {clients : List Client} {state : store.State}
    (h : AllSteady clients state) (i : Nat) :
    AllSteady (turn i clients state).1 (turn i clients state).2 ∧
      Onward store state (turn i clients state).2 := by
  rw [Interleaving.turn]
  cases hi : clients[i]? with
  | none => exact ⟨h, Onward.refl state⟩
  | some c =>
      obtain ⟨hguarded, honward, hleft⟩ :=
        (h.steady i c hi).step Onward.refl h.guarded fun _ => false
      refine ⟨⟨hguarded, fun j other hj => ?_⟩, honward⟩
      dsimp only at hj
      rw [List.getElem?_set] at hj
      split at hj
      · split at hj
        · cases hj
          exact hleft
        · cases hj
      · exact (h.steady j other hj).later Onward.trans honward

variable (r : Interleaving store)

theorem allSteady_start (guarded : Guarded store r.start) :
    AllSteady (r.clients 0) (r.state 0) := by
  refine ⟨guarded, fun i c hc => ?_⟩
  obtain ⟨⟨service, call⟩, -, rfl⟩ := List.mem_map.1 (List.mem_of_getElem? hc)
  exact steady_call r.start service call

/-- The key is unique after any number of turns. -/
theorem allSteady (guarded : Guarded store r.start) (n : Nat) :
    AllSteady (r.clients n) (r.state n) := by
  induction n with
  | zero => exact r.allSteady_start guarded
  | succ n ih => exact (ih.turn (r.schedule n)).1

/-- Every turn leads onward. -/
theorem onward (guarded : Guarded store r.start) {m n : Nat} (h : m ≤ n) :
    Onward store (r.state m) (r.state n) := by
  induction n, h using Nat.le_induction with
  | base => exact Onward.refl _
  | succ n _ ih => exact ih.trans ((r.allSteady guarded n).turn (r.schedule n)).2

/-! ## Following one client -/

section Following

variable {r} {i n : Nat} {call : Call}

/-- In the turns of the others a client does nothing. -/
theorem clients_succ_of_ne (h : r.schedule n ≠ i) :
    (r.clients (n + 1))[i]? = (r.clients n)[i]? := by
  show (turn (r.schedule n) (r.clients n) (r.state n)).1[i]? = _
  rw [turn]
  cases (r.clients n)[r.schedule n]? with
  | none => rfl
  | some c =>
      dsimp only
      rw [List.getElem?_set_ne h]

/-- In its own turn a client goes on from the answer to its request. -/
theorem clients_succ (request : Request)
    {resume : Except Error request.Answer → Session call.Answer} (hi : r.schedule n = i)
    (hc : (r.clients n)[i]? = some ⟨call, .ask request resume⟩) :
    (r.clients (n + 1))[i]?
        = some ⟨call, resume (store.backend.answer (r.state n) request).1⟩ ∧
      r.state (n + 1) = (store.backend.answer (r.state n) request).2 := by
  have hturn : r.moment (n + 1) = ((r.clients n).set i
        ⟨call, resume (store.backend.answer (r.state n) request).1⟩,
      (store.backend.answer (r.state n) request).2) := by
    show turn (r.schedule n) (r.clients n) (r.state n) = _
    rw [turn, hi, hc]
    rfl
  show (r.moment (n + 1)).1[i]? = _ ∧ (r.moment (n + 1)).2 = _
  rw [hturn]
  refine ⟨?_, rfl⟩
  rw [List.getElem?_set_self (List.getElem?_eq_some_iff.1 hc).1]

/-- A client whose turn comes again and again gets a next turn, and waits for it. -/
theorem next_turn (fair : ∀ m, ∃ n ≥ m, r.schedule n = i) (m : Nat) :
    ∃ n ≥ m, r.schedule n = i ∧ (∀ k ≥ m, k < n → r.schedule k ≠ i) ∧
      (r.clients n)[i]? = (r.clients m)[i]? := by
  classical
  obtain ⟨hle, hturn⟩ := Nat.find_spec (fair m)
  have hwait : ∀ k ≥ m, k < Nat.find (fair m) → r.schedule k ≠ i :=
    fun k hk hlt hi => Nat.find_min (fair m) hlt ⟨hk, hi⟩
  refine ⟨Nat.find (fair m), hle, hturn, hwait, ?_⟩
  have hsame : ∀ n ≥ m, (∀ k ≥ m, k < n → r.schedule k ≠ i) →
      (r.clients n)[i]? = (r.clients m)[i]? := by
    intro n hn
    induction n, hn using Nat.le_induction with
    | base => exact fun _ => rfl
    | succ n hn ih =>
        intro hnot
        rw [clients_succ_of_ne (hnot n hn (Nat.lt_succ_self n))]
        exact ih fun k hk hlt => hnot k hk (Nat.lt_succ_of_lt hlt)
  exact hsame _ hle hwait

/-- A client that only looks entities up before it goes on does so as if it were alone. -/
theorem looksUp_ends {α : Type} (guarded : Guarded store r.start)
    (fair : ∀ m, ∃ n ≥ m, r.schedule n = i) {s : Session α} (looksUp : s.LooksUp)
    {next : α → Session call.Answer} {m : Nat}
    (hc : (r.clients m)[i]? = some ⟨call, s >>= next⟩) :
    ∃ n ≥ m, (r.clients n)[i]?
      = some ⟨call, .done (s.run store.backend Faults.none r.start).1 >>= next⟩ := by
  induction s generalizing m with
  | done outcome => exact ⟨m, Nat.le_refl m, hc⟩
  | ask request resume ih =>
      cases request with
      | readEntity kind id =>
          obtain ⟨n, hn, hi, -, hsame⟩ := next_turn fair m
          rw [hc] at hsame
          obtain ⟨hnext, -⟩ := clients_succ _ hi hsame
          -- The entities are the same all the time.
          have hentity : store.entity? (r.state n) = store.entity? r.start :=
            (r.onward guarded (Nat.zero_le n)).entities
          rw [Store.knows, hentity] at hnext
          obtain ⟨last, hlast, hend⟩ := ih _ (looksUp.2 _) hnext
          refine ⟨last, by omega, ?_⟩
          rw [hend, run_none_ask, Store.knows]
      | _ => exact looksUp.elim

end Following

/-! ## How a `set` ends -/

/-- The turn in which a client saves its setting is the last one of its `set`. The setting is
refused and nothing changes, or it is saved and found again at once. -/
structure SetEnds (i : Nat) (key : String) (v : Json) (s : Setting) (last : Nat) : Prop where
  turn : r.schedule last = i
  saves : (r.clients last)[i]? = some ⟨.set key v, .call (.saveSetting s)⟩
  refused : Refuses store (r.state last) s →
    (r.clients (last + 1))[i]? = some ⟨.set key v, .done (.error .database)⟩ ∧
      r.state (last + 1) = r.state last
  accepted : ¬ Refuses store (r.state last) s → ∃ id,
    (r.clients (last + 1))[i]? = some ⟨.set key v, .done (.ok ⟨id, key, s.value⟩)⟩ ∧
      (store.backend.answer (r.state (last + 1)) (.findSetting key)).1
        = .ok (some ⟨id, key, store.readBack s.value⟩) ∧
      (s.value.Storable → store.readBack s.value = s.value)

variable {r} {i : Nat} {service : Service} {key : String} {v : Json}

/-- A setting that is about to be saved under an id that its key owns is saved in the next
turn. -/
theorem setEnds_of_saves (guarded : Guarded store r.start) (only : OnlyKeyUnique store r.start)
    (fair : ∀ m, ∃ n ≥ m, r.schedule n = i) {s : Setting} {m : Nat} (hkey : s.key = key)
    (owned : Owned store (r.state m) s)
    (hc : (r.clients m)[i]? = some ⟨.set key v, .call (.saveSetting s)⟩) :
    ∃ last ≥ m, r.SetEnds i key v s last := by
  obtain ⟨last, hlast, hi, -, hsame⟩ := next_turn fair m
  rw [hc] at hsame
  obtain ⟨hnext, hstate⟩ := clients_succ _ hi hsame
  have hguarded := (r.allSteady guarded last).guarded
  have honly := (r.onward guarded (Nat.zero_le last)).only only
  have howned := (r.onward guarded hlast).owned s owned
  refine ⟨last, hlast, hi, hsame, fun refuses => ?_, fun accepts => ?_⟩
  · rw [answer_saveSetting_of_refuses hguarded refuses] at hnext hstate
    exact ⟨hnext, hstate⟩
  · obtain ⟨id, hok, hfind⟩ := answer_saveSetting_of_accepts hguarded honly howned accepts
    rw [hok, hkey] at hnext
    rw [← hstate, hkey] at hfind
    refine ⟨id, hnext, ?_, store.readBack_of_storable⟩
    rw [Store.answer_findSetting, hfind]

/-- The setting that a client validates after its first turn, in which it looks for the key. -/
def sought (r : Interleaving store) (key : String) (v : Json) (first : Nat) : Setting :=
  ⟨(find? key (store.documents (r.state first))).map (·.id), key, v⟩

/-- In its first turn a client that sets a key finds out under which id to save. -/
theorem set_begins (fair : ∀ m, ∃ n ≥ m, r.schedule n = i)
    (hcall : r.calls[i]? = some (service, .set key v)) :
    ∃ first, r.schedule first = i ∧ (∀ m < first, r.schedule m ≠ i) ∧
      (r.clients (first + 1))[i]? = some ⟨.set key v,
        service.validate (r.sought key v first) >>= fun s => call (.saveSetting s)⟩ := by
  have hstart : (r.clients 0)[i]? = some ⟨.set key v, service.set key v⟩ := by
    show (r.calls.map _)[i]? = _
    rw [List.getElem?_map, hcall]
    rfl
  obtain ⟨first, -, hi, hwait, hsame⟩ := next_turn fair 0
  rw [hstart] at hsame
  obtain ⟨hnext, -⟩ := clients_succ (.findSetting key) hi hsame
  refine ⟨first, hi, fun m hm => hwait m (Nat.zero_le m) hm, ?_⟩
  rw [hnext, Store.answer_findSetting, sought]
  cases hfound : find? key (store.documents (r.state first)) with
  | none => rfl
  | some d =>
      rw [Option.map_some, ← (Document.find?_spec hfound).2.1]
      rfl

theorem owned_sought (guarded : Guarded store r.start) (first : Nat) :
    Owned store (r.state first) (r.sought key v first) := by
  rw [sought]
  cases hfound : find? key (store.documents (r.state first)) with
  | none => exact owned_of_none store _ key v
  | some d =>
      obtain ⟨hd, hkey, -⟩ := Document.find?_spec hfound
      rw [← hkey]
      exact owned_of_mem (r.allSteady guarded first).guarded.orderly hd v

end Interleaving

/-- Last write wins, over either store and for any calls whose requests interleave in any order,
none of them failing, from an attainable state with a unique index on exactly the key, no key
stored twice and no other unique index. These hold at every moment. A client that sets a key
and whose turn comes again and again looks for the key in its first turn. If its handler does
not accept the value, the call ends with the handler's error. Otherwise it ends with the turn
in which the client saves: what is answered is what is found for the key then, unless a table
has to refuse it because others have removed the document that was found and stored the key
anew, or because it has no number left or does not know about its index. -/
theorem last_write_wins (r : Interleaving store) (attainable : store.Attainable r.start)
    (unique : ∃ index ∈ store.indexes r.start, index.unique = true ∧ index.fields = [keyField])
    (keys : KeysDistinct (store.documents r.start))
    (only : ∀ index ∈ store.indexes r.start, index.unique = true → index.fields = [keyField]) :
    (∀ n, (∃ index ∈ store.indexes (r.state n), index.unique = true ∧ index.fields = [keyField]) ∧
      KeysDistinct (store.documents (r.state n))) ∧
    ∀ (i : Nat) (service : Service) (key : String) (v : Json),
      r.calls[i]? = some (service, .set key v) → (∀ m, ∃ n ≥ m, r.schedule n = i) →
      ∃ first, r.schedule first = i ∧ (∀ m < first, r.schedule m ≠ i) ∧
        match ((service.validate (r.sought key v first)).run store.backend Faults.none
          r.start).1 with
        | .error e => ∃ last, (r.clients last)[i]? = some ⟨.set key v, .done (.error e)⟩
        | .ok s => ∃ last > first, r.SetEnds i key v s last := by
  have hunique : HasUniqueIndex store r.start := by
    obtain ⟨index, hindex, hon⟩ := unique
    exact ⟨index, hindex, Index.isUniqueOn_iff.2 hon⟩
  have honly : OnlyKeyUnique store r.start :=
    fun index hindex hon => Index.isUniqueOn_iff.2 ⟨hon, only index hindex hon⟩
  have guarded : Guarded store r.start := ⟨attainable.orderly, hunique, keys⟩
  constructor
  · intro n
    obtain ⟨-, ⟨index, hindex, hon⟩, hkeys⟩ := (r.allSteady guarded n).guarded
    exact ⟨⟨index, hindex, Index.isUniqueOn_iff.1 hon⟩, hkeys⟩
  · intro i service key v hcall fair
    obtain ⟨first, hi, hwait, hbegins⟩ := Interleaving.set_begins fair hcall
    refine ⟨first, hi, hwait, ?_⟩
    obtain ⟨n, hn, hend⟩ :=
      Interleaving.looksUp_ends guarded fair (service.looksUp_validate _) hbegins
    have hvalid := (ends_validate store r.start service (r.sought key v first) Faults.none).2
    cases hjudged : ((service.validate (r.sought key v first)).run store.backend Faults.none
        r.start).1 with
    | error e =>
        rw [hjudged] at hend
        exact ⟨n, hend⟩
    | ok s =>
        rw [hjudged] at hend
        obtain ⟨hid, hkey⟩ := hvalid s hjudged
        have howned : Owned store (r.state n) s :=
          ((r.onward guarded (Nat.le_of_succ_le hn)).owned _
            (Interleaving.owned_sought guarded first)).congr hid hkey
        obtain ⟨last, hlast, hends⟩ :=
          Interleaving.setEnds_of_saves guarded honly fair hkey howned hend
        exact ⟨last, by omega, hends⟩

/-! ## A document that is removed and stored anew -/

/-- A client sets a key; when it has found the document of the key, another one unsets the key
and a third one sets it. Then the first one has its next turn, and from there on they take
turns. -/
def raced (store : Store) (start : store.State) : Interleaving store where
  calls := [(coreService, .set passwordKey (.bool true)), (coreService, .unset passwordKey),
    (coreService, .set passwordKey (.bool false))]
  schedule n := [0, 1, 1, 2, 2, 0].getD n (n % 3)
  start := start

/-- A store in memory with a unique index, in which the key is stored. -/
def memoryIndexed : Memory :=
  ⟨[⟨1, passwordKey, .null⟩], [⟨"idx_settings_key", ["key"], true⟩], [], 1, [], 1⟩

/-- The store in memory saves what the first client sets. -/
theorem last_write_wins_of_memoryIndexed :
    ∃ last id, ((raced .memory memoryIndexed).clients (last + 1))[0]?
        = some ⟨.set passwordKey (.bool true), .done (.ok ⟨id, passwordKey, .bool true⟩)⟩ ∧
      (Memory.backend.answer ((raced .memory memoryIndexed).state (last + 1))
        (.findSetting passwordKey)).1 = .ok (some ⟨id, passwordKey, .bool true⟩) := by
  have attainable : Store.memory.Attainable memoryIndexed :=
    .answer (.saveSetting ⟨none, passwordKey, .null⟩) (.answer (.createIndex "key" true) .empty)
  have only : ∀ index ∈ Store.memory.indexes memoryIndexed, index.unique = true →
      index.fields = [keyField] := by decide
  have fair : ∀ m, ∃ n ≥ m, (raced .memory memoryIndexed).schedule n = 0 := by
    intro m
    refine ⟨3 * m + 6, by omega, ?_⟩
    show [0, 1, 1, 2, 2, 0].getD (3 * m + 6) ((3 * m + 6) % 3) = 0
    rw [List.getD_eq_getElem?_getD, List.getElem?_eq_none (by simp), Option.getD_none]
    omega
  obtain ⟨-, hsets⟩ := last_write_wins (raced .memory memoryIndexed) attainable
    ⟨_, List.mem_cons_self, rfl, rfl⟩ (by decide) only
  obtain ⟨first, -, hwait, hends⟩ := hsets 0 coreService passwordKey (.bool true) rfl fair
  have hfirst : first = 0 := by
    by_contra hne
    exact hwait 0 (Nat.pos_of_ne_zero hne) rfl
  subst hfirst
  obtain ⟨last, -, hset⟩ := hends
  obtain ⟨id, hend, hfind, -⟩ := hset.accepted fun h => h
  exact ⟨last, id, hend, hfind⟩

/-- A table with a unique index, in which the key is stored. -/
def tableIndexed : Table :=
  ⟨[⟨1, passwordKey, some "null"⟩], 1, [⟨"idx_settings_key_unique", [.key], true⟩], [], true⟩

/-- The table has a unique index on exactly the key, no key stored twice and no other index; it
refuses what the first client sets, although its handler accepts the value and no request was
made to fail. -/
theorem set_fails_of_removed :
    Store.table.Attainable tableIndexed ∧
      Store.table.indexes tableIndexed = [⟨"idx_settings_key_unique", [keyField], true⟩] ∧
      KeysDistinct tableIndexed.documents ∧
      ((coreService.validate ((raced .table tableIndexed).sought passwordKey (.bool true) 0)).run
        Table.backend Faults.none tableIndexed).1 = .ok ⟨some 1, passwordKey, .bool true⟩ ∧
      ((raced .table tableIndexed).clients 6)[0]?
        = some ⟨.set passwordKey (.bool true), .done (.error .database)⟩ := by
  have attainable : Store.table.Attainable tableIndexed :=
    .answer (.saveSetting ⟨none, passwordKey, .null⟩) (.answer (.createIndex "key" true) .empty)
  exact ⟨attainable, rfl, by decide, rfl, rfl⟩

end Service

end SettingStore
