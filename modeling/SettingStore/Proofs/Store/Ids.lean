import SettingStore.Proofs.Store.Saving

set_option autoImplicit false

/-! # Ids along a run

Each store keeps a mark that no id is above (`Store.mark`): the store in memory the last id that
it gave out, the table the highest number that was ever used. No request lowers it
(`mark_le_answer`), removals included, and a setting without an id that becomes a new document
gets the number after it (`id_of_unused`). So an id is never given out a second time
(`ids_never_reused`). A table whose mark is the greatest 64-bit number saves no further setting
without an id (`Table.save_of_full`); the ids of the store in memory are 64-bit numbers as long as
fewer than `2 ^ 63` documents have been added (`Memory.Numbered`).
-/

namespace SettingStore

open Document (IdsIncrease)

namespace Store

variable {store : Store} {state : store.State}

/-! ## Requests that add a document -/

/-- There are more documents after the request than before it. -/
def Adds (store : Store) (state : store.State) (request : Request) : Prop :=
  (store.documents state).length
    < (store.documents (store.backend.answer state request).2).length

instance (store : Store) (state : store.State) (request : Request) :
    Decidable (store.Adds state request) := inferInstanceAs (Decidable (_ < _))

/-- How many of the requests, made one after the other, add a document. -/
def additions (store : Store) : store.State → List Request → Nat
  | _, [] => 0
  | state, request :: rest =>
      (if store.Adds state request then 1 else 0)
        + store.additions (store.backend.answer state request).2 rest

/-- A saved setting that adds a document comes after all others if its id is above theirs. -/
theorem Saves.documents_append {s : Setting} {saved : Document} {after : store.State}
    (h : store.Saves state s saved after) (ids : IdsIncrease (store.documents state))
    (ids' : IdsIncrease (store.documents after))
    (above : ∀ d ∈ store.documents state, d.id < saved.id) :
    store.documents after
      = store.documents state ++ [⟨saved.id, s.key, store.readBack s.value⟩] := by
  refine IdsIncrease.ext ids' (List.pairwise_append.2 ⟨ids, List.pairwise_singleton _ _, ?_⟩)
    fun d => ?_
  · intro d hd e he
    rw [List.mem_singleton.1 he]
    exact above d hd
  · rw [h.documents, List.mem_append, List.mem_singleton, or_comm]
    exact or_congr_left (and_iff_left_of_imp fun hd => Int.ne_of_lt (above d hd))

/-- A save under the id of a stored document adds none. -/
theorem Saves.unused_of_adds {s : Setting} {saved : Document} {after : store.State}
    (h : store.Saves state s saved after) (ids' : IdsIncrease (store.documents after))
    (adds : (store.documents state).length < (store.documents after).length) :
    ∀ d ∈ store.documents state, d.id ≠ saved.id := by
  intro d hd hid
  -- All ids afterwards were there before, and none of them occurs twice.
  have hsubset : (store.documents after).map (·.id) ⊆ (store.documents state).map (·.id) := by
    intro id hmem
    obtain ⟨e, he, rfl⟩ := List.mem_map.1 hmem
    rcases (h.documents e).1 he with rfl | ⟨he, -⟩
    · exact List.mem_map.2 ⟨d, hd, hid⟩
    · exact List.mem_map_of_mem he
  have hle := (List.subperm_of_subset ids'.nodup_ids hsubset).length_le
  rw [List.length_map, List.length_map] at hle
  omega

end Store

/-! ## Numbers of the store in memory -/

namespace Memory

variable {m : Memory}

/-- `n` ids have been given out, counted from one. -/
structure Numbered (m : Memory) (n : Nat) : Prop where
  last : m.lastId = n
  positive : ∀ id ∈ m.documents.map (·.id), 0 < id

theorem numbered_answer {n : Nat} (numbered : m.Numbered n) (request : Request) :
    (backend.answer m request).2.Numbered
      (n + if Store.memory.Adds m request then 1 else 0) := by
  have hadds : Store.memory.Adds m request ↔ (m.documents.map (·.id)).length
      < ((backend.answer m request).2.documents.map (·.id)).length := by
    rw [List.length_map, List.length_map]
    exact Iff.rfl
  rcases ids_answer m request with ⟨hlast, hids⟩ | ⟨hlast, hids⟩
  · have hnot : ¬ Store.memory.Adds m request := fun h =>
      Nat.not_lt_of_le hids.length_le (hadds.1 h)
    rw [if_neg hnot]
    exact ⟨hlast.trans numbered.last, fun id hid => numbered.positive id (hids.mem hid)⟩
  · have hmore : Store.memory.Adds m request := by
      rw [hadds, hids, List.length_append]
      exact Nat.lt_succ_self _
    rw [if_pos hmore]
    refine ⟨?_, fun id hid => ?_⟩
    · rw [hlast, numbered.last]
      rfl
    · rw [hids] at hid
      rcases List.mem_append.1 hid with hid | hid
      · exact numbered.positive id hid
      · rw [List.mem_singleton.1 hid, numbered.last]
        omega

theorem numbered_after {n : Nat} (numbered : m.Numbered n) (requests : List Request) :
    (backend.after requests m).Numbered (n + Store.memory.additions m requests) := by
  induction requests generalizing m n with
  | nil => exact numbered
  | cons request rest ih =>
      rw [Store.additions, ← Nat.add_assoc]
      exact ih (numbered_answer numbered request)

theorem numbered_empty : empty.Numbered 0 := by
  refine ⟨rfl, fun id hid => ?_⟩
  exact absurd hid List.not_mem_nil

end Memory

/-! ## A table whose numbers are used up -/

namespace Table

variable {t : Table}

/-- Once the greatest number has been used, no setting without an id is saved. -/
theorem save_of_full (sound : t.Sound) (full : Word.maxSigned ≤ t.highest) {s : Setting}
    (hid : s.id = none) : t.save s = (.error .database, t) := by
  have hsigned : ∀ id, s.id = some id → Word.Signed id := by simp [hid]
  have hstatement := statement?_eq sound.informed hsigned
  rw [if_pos ⟨hid, full⟩] at hstatement
  exact save_eq_error_iff.2 hstatement

end Table

namespace Store

variable {store : Store} {state : store.State}

/-! ## The mark that no id is above -/

/-- The last id given out, or the highest number used. -/
def mark : (store : Store) → store.State → Int
  | .memory, m => m.lastId
  | .table, t => t.highest

theorem Orderly.id_le_mark (orderly : store.Orderly state) :
    ∀ d ∈ store.documents state, d.id ≤ store.mark state := by
  cases store with
  | memory => exact Memory.Orderly.bounded orderly
  | table =>
      intro d hd
      obtain ⟨row, hrow, rfl⟩ := List.mem_map.1 hd
      exact Table.Orderly.bounded orderly row hrow

theorem mark_le_answer (orderly : store.Orderly state) (request : Request) :
    store.mark state ≤ store.mark (store.backend.answer state request).2 := by
  cases store with
  | memory => exact Memory.lastId_le_answer state request
  | table => exact Table.highest_le_answer orderly request

/-- Of two runs, one of which begins with the other, the longer one has the higher mark. -/
theorem mark_mono {before requests : List Request} (h : before <+: requests) :
    store.mark (store.backend.after before store.empty)
      ≤ store.mark (store.backend.after requests store.empty) :=
  Backend.after_le_after orderly_answer mark_le_answer Reachable.empty.sound.orderly h

/-- No id that there has been in a run is above the mark. -/
theorem id_le_mark_after {before requests : List Request} (h : before <+: requests) :
    ∀ d ∈ store.documents (store.backend.after before store.empty),
      d.id ≤ store.mark (store.backend.after requests store.empty) := fun d hd =>
  Int.le_trans ((Reachable.empty.after before).sound.orderly.id_le_mark d hd) (mark_mono h)

/-- A setting without an id that is not saved in a stored document gets the number after the
mark. -/
theorem id_of_unused (sound : store.Sound state) {s : Setting} {saved : Document}
    {next : store.State} (hid : s.id = none)
    (h : store.backend.answer state (.saveSetting s) = (.ok saved, next))
    (unused : ∀ d ∈ store.documents state, d.id ≠ saved.id) :
    saved.id = store.mark state + 1 := by
  cases store with
  | memory =>
      have hsaved : (Memory.save state s).1 = saved := Except.ok.inj (congrArg Prod.fst h)
      rw [← hsaved] at unused ⊢
      rcases Memory.save_cases state s with ⟨p, change, e, hfound, hchange, -, hs⟩ | ⟨-, -, hs⟩
      · rw [hs] at unused
        exact absurd (by rw [hchange]) (unused e (List.mem_of_find?_eq_some hfound))
      · rw [hs]
        rfl
  | table =>
      obtain ⟨rfl, -⟩ := Table.save_of_ok sound h
      rcases Table.target_cases state hid with ⟨row, -, hfound, htarget⟩ | ⟨-, htarget⟩
      · have hrow : row ∈ Table.rows state := List.mem_of_find?_eq_some hfound
        exact absurd htarget.symm (unused row.document (List.mem_map_of_mem hrow))
      · exact htarget

/-! ## Ids are not used again -/

variable {requests : List Request} {s : Setting}

/-- A setting without an id that adds a document is added after all others, under an id above all
that there have been. -/
theorem documents_of_adds {saved : Document} {next : store.State} (hid : s.id = none)
    (h : store.backend.answer (store.backend.after requests store.empty) (.saveSetting s)
      = (.ok saved, next))
    (adds : store.Adds (store.backend.after requests store.empty) (.saveSetting s)) :
    store.documents next = store.documents (store.backend.after requests store.empty)
        ++ [⟨saved.id, s.key, store.readBack s.value⟩] ∧
      ∀ before, before <+: requests →
        ∀ d ∈ store.documents (store.backend.after before store.empty), d.id < saved.id := by
  have hsound : store.Sound (store.backend.after requests store.empty) :=
    (Reachable.empty.after requests).sound
  have hnext := orderly_answer hsound.orderly (.saveSetting s)
  rw [h] at hnext
  rw [Adds, h] at adds
  have hsaves : store.Saves (store.backend.after requests store.empty) s saved next := by
    rcases answer_saveSetting hsound.orderly s with herror | ⟨_, _, hok, hsaves⟩
    · rw [h] at herror
      cases herror
    · rw [h] at hok
      cases hok
      exact hsaves
  have hnew := id_of_unused hsound hid h (hsaves.unused_of_adds hnext.ids adds)
  -- The marks of a run increase, and the new id is above the last of them.
  have habove : ∀ before, before <+: requests →
      ∀ d ∈ store.documents (store.backend.after before store.empty), d.id < saved.id := by
    intro before hbefore d hd
    have hle := id_le_mark_after hbefore d hd
    omega
  exact ⟨hsaves.documents_append hsound.ids hnext.ids (habove requests List.prefix_rfl), habove⟩

/-- Once the greatest number has been an id in a table, a setting without an id is not saved. -/
theorem save_of_greatest
    (h : ∃ before, before <+: requests ∧
      ∃ d ∈ table.documents (table.backend.after before table.empty), d.id = Word.maxSigned)
    (hid : s.id = none) :
    table.backend.answer (table.backend.after requests table.empty) (.saveSetting s)
      = (.error .database, table.backend.after requests table.empty) := by
  obtain ⟨before, hbefore, d, hd, hgreatest⟩ := h
  have hle := id_le_mark_after hbefore d hd
  rw [hgreatest] at hle
  exact Table.save_of_full (Table.sound_after requests) hle hid

/-- All ids are 64-bit numbers, in memory as long as fewer than `2 ^ 63` documents have been
added. -/
theorem signed_id
    (few : store = .memory → store.additions store.empty requests < 9223372036854775808) :
    ∀ d ∈ store.documents (store.backend.after requests store.empty), Word.Signed d.id := by
  intro d hd
  cases store with
  | memory =>
      have hnumbered := Memory.numbered_after Memory.numbered_empty requests
      have hfirst := hnumbered.positive d.id (List.mem_map_of_mem hd)
      have hlast := id_le_mark_after List.prefix_rfl d hd
      have hcount : memory.mark (memory.backend.after requests memory.empty)
          = (0 + memory.additions memory.empty requests : Nat) := hnumbered.last
      have hbound := few rfl
      simp only [Word.Signed, Word.minSigned, Word.maxSigned]
      omega
  | table =>
      obtain ⟨row, hrow, rfl⟩ := List.mem_map.1 hd
      exact (Table.sound_after requests).signed row hrow

/-- After any requests no two documents have the same id. A setting without an id that becomes a
new document then gets an id above all ids that there have been. Once the greatest 64-bit number
has been an id in a table, no setting without an id is saved there any more. All ids are 64-bit
numbers, in memory as long as fewer than `2 ^ 63` documents have been added. -/
theorem ids_never_reused (store : Store) (requests : List Request) :
    ((store.documents (store.backend.after requests store.empty)).map (·.id)).Nodup ∧
    (∀ s saved next, s.id = none →
      store.backend.answer (store.backend.after requests store.empty) (.saveSetting s)
        = (.ok saved, next) →
      store.Adds (store.backend.after requests store.empty) (.saveSetting s) →
        store.documents next = store.documents (store.backend.after requests store.empty)
            ++ [⟨saved.id, s.key, store.readBack s.value⟩] ∧
          ∀ before, before <+: requests →
            ∀ d ∈ store.documents (store.backend.after before store.empty), d.id < saved.id) ∧
    (store = .table →
      (∃ before, before <+: requests ∧
        ∃ d ∈ store.documents (store.backend.after before store.empty), d.id = Word.maxSigned) →
      ∀ s, s.id = none →
        store.backend.answer (store.backend.after requests store.empty) (.saveSetting s)
          = (.error .database, store.backend.after requests store.empty)) ∧
    ((store = .memory → store.additions store.empty requests < 9223372036854775808) →
      ∀ d ∈ store.documents (store.backend.after requests store.empty), Word.Signed d.id) := by
  refine ⟨(Reachable.empty.after requests).sound.ids.nodup_ids, ?_, ?_, signed_id⟩
  · exact fun s saved next hid hanswer hadds => documents_of_adds hid hanswer hadds
  · rintro rfl hgreatest s hid
    exact save_of_greatest hgreatest hid

/-- A document under a given id, which is removed, and one under an id below zero. -/
def givenIds : List Request :=
  [.saveSetting ⟨some 7, "a", .null⟩, .removeSetting 7, .saveSetting ⟨some (-3), "b", .null⟩]

/-- A document under the greatest id, which is removed. -/
def greatestId : List Request :=
  [.saveSetting ⟨some Word.maxSigned, "a", .null⟩, .removeSetting Word.maxSigned]

/-- A table goes on after the id that was removed, the store in memory has given ids of its own,
and after the greatest id nothing new is saved in a table. -/
theorem ids_never_reused_of_removed :
    (∃ saved next,
      table.backend.answer (table.backend.after givenIds table.empty)
        (.saveSetting ⟨none, "c", .null⟩) = (.ok saved, next) ∧
      table.Adds (table.backend.after givenIds table.empty) (.saveSetting ⟨none, "c", .null⟩) ∧
      table.documents next = [⟨-3, "b", .null⟩, ⟨8, "c", .null⟩] ∧
      ∀ before, before <+: givenIds →
        ∀ d ∈ table.documents (table.backend.after before table.empty), d.id < 8) ∧
    table.backend.answer (table.backend.after greatestId table.empty)
        (.saveSetting ⟨none, "b", .null⟩)
      = (.error .database, table.backend.after greatestId table.empty) ∧
    memory.additions memory.empty givenIds < 9223372036854775808 ∧
    ∀ d ∈ memory.documents (memory.backend.after givenIds memory.empty), Word.Signed d.id := by
  have hanswer : ∃ next, table.backend.answer (table.backend.after givenIds table.empty)
      (.saveSetting ⟨none, "c", .null⟩) = (.ok ⟨8, "c", .null⟩, next) := ⟨_, rfl⟩
  obtain ⟨next, hanswer⟩ := hanswer
  have hadds : table.Adds (table.backend.after givenIds table.empty)
      (.saveSetting ⟨none, "c", .null⟩) := by decide
  obtain ⟨hdocuments, habove⟩ := (ids_never_reused .table givenIds).2.1 _ _ _ rfl hanswer hadds
  have hgreatest : ∃ before, before <+: greatestId ∧
      ∃ d ∈ table.documents (table.backend.after before table.empty), d.id = Word.maxSigned :=
    ⟨greatestId.take 1, List.take_prefix _ _, _, List.mem_singleton_self _, rfl⟩
  have hfew : memory.additions memory.empty givenIds < 9223372036854775808 := by decide
  exact ⟨⟨_, next, hanswer, hadds, hdocuments, habove⟩,
    (ids_never_reused .table greatestId).2.2.1 rfl hgreatest _ rfl,
    hfew, (ids_never_reused .memory givenIds).2.2.2 fun _ => hfew⟩

end Store

end SettingStore
