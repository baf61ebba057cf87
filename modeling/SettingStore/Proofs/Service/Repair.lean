import SettingStore.Proofs.Session.Ends
import SettingStore.Proofs.Store.Either

set_option autoImplicit false

/-! # Making sure of the unique index

`Service.reconnect` drops the plain indexes on the key, removes all but the lowest document of
each key, and creates the unique index. Most of its calls may fail without any consequence, so
its parts are described by what they can have done at most: `ends_dropPlain` and
`ends_removeExtra`. Only `removeExtra` has a second description, for calls that do not fail.
`spares_reconnect` says what readers see afterwards and `ends_reconnect` what else holds;
`reconnect_establishes_uniqueness` is what that means for the states that requests lead to.
-/

namespace SettingStore

open Session
open Document (IdsIncrease KeysDistinct find?)

/-! ## The ids to remove -/

namespace Ordered

/-- Numbers are sorted from the lowest up. -/
theorem sort_ids_pairwise (ids : List Int) :
    (sort (fun a b => decide (a ≤ b)) ids).Pairwise fun a b => decide (a ≤ b) = true := by
  refine sort_pairwise ?_ ?_ ids
  · intro a b
    simp only [decide_eq_true_eq]
    omega
  · intro a b c
    simp only [decide_eq_true_eq]
    omega

/-- In which order the numbers were before does not matter. -/
theorem sort_ids_eq_of_perm {ids ids' : List Int} (h : ids.Perm ids') :
    sort (fun a b => decide (a ≤ b)) ids = sort (fun a b => decide (a ≤ b)) ids' := by
  refine List.Perm.eq_of_pairwise ?_ (sort_ids_pairwise ids) (sort_ids_pairwise ids') ?_
  · intro a b _ _ hab hba
    exact Int.le_antisymm (of_decide_eq_true hab) (of_decide_eq_true hba)
  · calc
      List.Perm (sort _ ids) ids := sort_perm _ ids
      List.Perm _ ids' := h
      List.Perm _ (sort _ ids') := (sort_perm _ ids').symm

/-- All but the first of the sorted numbers are those above some other one. -/
theorem mem_drop_one_sort {ids : List Int} (hids : ids.Nodup) {id : Int} :
    id ∈ (sort (fun a b => decide (a ≤ b)) ids).drop 1 ↔ id ∈ ids ∧ ∃ low ∈ ids, low < id := by
  have hpairwise := sort_ids_pairwise ids
  have hnodup := (sort_perm (fun a b => decide (a ≤ b)) ids).nodup_iff.2 hids
  have hmem : ∀ a, a ∈ sort (fun a b => decide (a ≤ b)) ids ↔ a ∈ ids := fun a => mem_sort
  cases hsorted : sort (fun a b => decide (a ≤ b)) ids with
  | nil =>
      rw [hsorted] at hmem
      simp only [List.drop_nil, ← hmem]
      simp
  | cons first rest =>
      rw [hsorted] at hpairwise hnodup hmem
      obtain ⟨hfirst, -⟩ := List.pairwise_cons.1 hpairwise
      obtain ⟨hnot, -⟩ := List.nodup_cons.1 hnodup
      have hle : ∀ a ∈ ids, first ≤ a := by
        intro a ha
        rcases List.mem_cons.1 ((hmem a).2 ha) with rfl | ha
        · exact Int.le_refl _
        · exact of_decide_eq_true (hfirst a ha)
      rw [List.drop_one, List.tail_cons]
      constructor
      · intro hid
        have hne : first ≠ id := fun he => hnot (he ▸ hid)
        have := of_decide_eq_true (hfirst id hid)
        refine ⟨(hmem id).1 (List.mem_cons_of_mem _ hid), first, ?_, by omega⟩
        exact (hmem first).1 List.mem_cons_self
      · rintro ⟨hid, low, hlow, hlt⟩
        rcases List.mem_cons.1 ((hmem id).2 hid) with rfl | hid
        · have := hle low hlow
          omega
        · exact hid

end Ordered

namespace Service

/-- The ids that are to be removed: all but the lowest of each group. -/
def extras (groups : List DuplicateGroup) : List Int :=
  groups.flatMap fun group => (Ordered.sort (fun a b => decide (a ≤ b)) group.ids).drop 1

section Extras

variable {docs : List Document} {groups : List DuplicateGroup}

/-- An id is to be removed exactly if its key has a document with a lower id. -/
theorem mem_extras (ids : IdsIncrease docs) (repeats : Store.Repeats groups docs) {d : Document}
    (hd : d ∈ docs) :
    d.id ∈ extras groups ↔ ∃ e ∈ docs, e.key = d.key ∧ e.id < d.id := by
  have hnodup : ∀ group ∈ groups, group.ids.Nodup := fun group hgroup =>
    (repeats.ids group hgroup).nodup_iff.2 (ids.nodup_ids_of_key group.key)
  have hgroup : ∀ group ∈ groups, ∀ id,
      id ∈ group.ids ↔ ∃ e ∈ docs, e.key = group.key ∧ e.id = id := by
    intro group hgroup id
    rw [(repeats.ids group hgroup).mem_iff, Document.mem_ids_of_key]
  rw [extras, List.mem_flatMap]
  constructor
  · rintro ⟨group, hmem, hdrop⟩
    obtain ⟨hid, low, hlow, hlt⟩ := (Ordered.mem_drop_one_sort (hnodup group hmem)).1 hdrop
    obtain ⟨d', hd', hkey, hid'⟩ := (hgroup group hmem d.id).1 hid
    obtain ⟨e, he, hkey', rfl⟩ := (hgroup group hmem low).1 hlow
    rw [ids.eq_of_id hd' hd hid'] at hkey
    exact ⟨e, he, hkey'.trans hkey.symm, hlt⟩
  · rintro ⟨e, he, hkey, hlt⟩
    -- Two documents have the key, so it has a group.
    have hcount : 1 < (docs.filter (·.key == d.key)).length := by
      by_contra hcon
      have hd' : d ∈ docs.filter (·.key == d.key) := List.mem_filter.2 ⟨hd, beq_self_eq_true _⟩
      have he' : e ∈ docs.filter (·.key == d.key) := List.mem_filter.2 ⟨he, beq_iff_eq.2 hkey⟩
      obtain ⟨only, honly⟩ := List.length_eq_one_iff.1
        (Nat.le_antisymm (Nat.le_of_not_lt hcon) (List.length_pos_of_mem hd'))
      rw [honly, List.mem_singleton] at hd' he'
      rw [hd', he'] at hlt
      exact absurd hlt (Int.lt_irrefl _)
    obtain ⟨group, hmem, hgkey⟩ := repeats.complete d.key hcount
    refine ⟨group, hmem, (Ordered.mem_drop_one_sort (hnodup group hmem)).2 ⟨?_, e.id, ?_, hlt⟩⟩
    · exact (hgroup group hmem d.id).2 ⟨d, hd, hgkey.symm, rfl⟩
    · exact (hgroup group hmem e.id).2 ⟨e, he, hkey.trans hgkey.symm, rfl⟩

/-- Removing some of the extra ids changes nothing in what is found for a key. -/
theorem find?_of_removed_extras (ids : IdsIncrease docs) (repeats : Store.Repeats groups docs)
    {gone : List Int} (hgone : gone ⊆ extras groups) (key : String) :
    find? key (docs.filter fun d => decide (d.id ∉ gone)) = find? key docs := by
  have hsub : IdsIncrease (docs.filter fun d => decide (d.id ∉ gone)) :=
    ids.sublist List.filter_sublist
  cases hfound : find? key docs with
  | none =>
      rw [Document.find?_eq_none_iff] at hfound ⊢
      intro d hd
      exact hfound d (List.mem_filter.1 hd).1
  | some d =>
      obtain ⟨hmem, hkey, hle⟩ := Document.find?_spec hfound
      refine (Document.find?_eq_some_iff hsub).2 ⟨?_, hkey, ?_⟩
      · refine List.mem_filter.2 ⟨hmem, decide_eq_true fun hid => ?_⟩
        obtain ⟨e, he, hkey', hlt⟩ := (mem_extras ids repeats hmem).1 (hgone hid)
        have := hle e he (hkey'.trans hkey)
        omega
      · intro e he hkey'
        exact hle e (List.mem_filter.1 he).1 hkey'

/-- Once all extra ids are removed, no key is stored twice. -/
theorem keysDistinct_of_removed_extras (ids : IdsIncrease docs)
    (repeats : Store.Repeats groups docs) :
    KeysDistinct (docs.filter fun d => decide (d.id ∉ extras groups)) := by
  rw [Document.keysDistinct_iff (ids.sublist List.filter_sublist)]
  intro d hd e he hkey
  rw [List.mem_filter, decide_eq_true_eq] at hd he
  have hde : ¬ d.id < e.id := fun hlt =>
    he.2 ((mem_extras ids repeats he.1).2 ⟨d, hd.1, hkey, hlt⟩)
  have hed : ¬ e.id < d.id := fun hlt =>
    hd.2 ((mem_extras ids repeats hd.1).2 ⟨e, he.1, hkey.symm, hlt⟩)
  exact ids.eq_of_id hd.1 he.1 (by omega)

end Extras

/-! ## The parts of a repair -/

variable {store : Store} {state : store.State}

theorem removeExtra_append (ids others : List Int) :
    removeExtra (ids ++ others) = removeExtra ids >>= fun _ => removeExtra others := by
  induction ids with
  | nil => rfl
  | cons id rest ih =>
      rw [List.cons_append, removeExtra, removeExtra, ih]
      exact (bind_assoc' _ _ _).symm

/-- The duplicates are removed one id after another. -/
theorem removeDuplicates_eq (groups : List DuplicateGroup) :
    removeDuplicates groups = removeExtra (extras groups) := by
  induction groups with
  | nil => rfl
  | cons group rest ih =>
      have hextras : extras (group :: rest)
          = (Ordered.sort (fun a b => decide (a ≤ b)) group.ids).drop 1 ++ extras rest := rfl
      rw [removeDuplicates, ih, hextras, removeExtra_append]

/-- Where no id is removed, all documents stay. -/
theorem filter_not_mem_nil (docs : List Document) :
    docs.filter (fun d => decide (d.id ∉ ([] : List Int))) = docs :=
  List.filter_eq_self.2 fun d _ => by simp

/-- Removing one id and then others is removing all of them. -/
theorem filter_not_mem_cons (docs : List Document) (id : Int) (others : List Int) :
    (docs.filter (·.id != id)).filter (fun d => decide (d.id ∉ others))
      = docs.filter fun d => decide (d.id ∉ id :: others) := by
  rw [List.filter_filter]
  refine List.filter_congr fun d _ => ?_
  by_cases h : d.id = id <;> simp [h]

/-- Whatever calls fail, documents with some of the ids are removed. -/
theorem ends_removeExtra (orderly : store.Orderly state) (ids : List Int) :
    Ends store.backend (fun outcome state' => outcome = .ok () ∧
      store.entity? state' = store.entity? state ∧
      store.indexes state' = store.indexes state ∧ ∃ gone, gone ⊆ ids ∧
        store.documents state'
          = (store.documents state).filter fun d => decide (d.id ∉ gone))
      (removeExtra ids) state := by
  induction ids generalizing state with
  | nil =>
      exact ends_done.2 ⟨rfl, rfl, rfl, [], List.Subset.refl _, (filter_not_mem_nil _).symm⟩
  | cons id rest ih =>
      refine ends_ask.2 ⟨(ih orderly).imp ?_, ?_⟩
      · rintro outcome state' ⟨hok, hentities, hindexes, gone, hgone, hdocs⟩
        exact ⟨hok, hentities, hindexes, gone, List.subset_cons_of_subset _ hgone, hdocs⟩
      · obtain ⟨next, hanswer, hdocs, hindexes⟩ := Store.answer_remove store state id
        have horderly := Store.orderly_answer orderly (.removeSetting id)
        have hentities := Store.entity?_answer orderly (.removeSetting id)
          fun _ h => by cases h
        rw [hanswer] at horderly hentities ⊢
        refine (ih horderly).imp ?_
        rintro outcome state' ⟨hok, hentities', hindexes', gone, hgone, hdocs'⟩
        refine ⟨hok, hentities'.trans hentities, hindexes'.trans hindexes, id :: gone,
          List.cons_subset_cons _ hgone, ?_⟩
        rw [hdocs', hdocs, filter_not_mem_cons]

/-- If no call fails, the documents with all of the ids are removed. -/
theorem run_none_removeExtra (state : store.State) (ids : List Int) :
    store.documents ((removeExtra ids).run store.backend Faults.none state).2
      = (store.documents state).filter fun d => decide (d.id ∉ ids) := by
  induction ids generalizing state with
  | nil => exact (filter_not_mem_nil _).symm
  | cons id rest ih =>
      obtain ⟨next, hanswer, hdocs, -⟩ := Store.answer_remove store state id
      have hrun : (removeExtra (id :: rest)).run store.backend Faults.none state
          = (removeExtra rest).run store.backend Faults.none
              (store.backend.answer state (.removeSetting id)).2 := rfl
      rw [hrun, hanswer, ih, hdocs, filter_not_mem_cons]

/-- The index leads with the key and does not make it unique. -/
def IsPlain (index : Index) : Prop := index.unique = false ∧ index.leadsWith keyField = true

/-- Whatever calls fail, no document is touched when indexes are dropped. -/
theorem ends_dropPlain_documents (state : store.State) (listed : List Index) :
    Ends store.backend (fun outcome state' => outcome = .ok () ∧
      store.documents state' = store.documents state) (dropPlain listed) state := by
  induction listed generalizing state with
  | nil => exact ends_done.2 ⟨rfl, rfl⟩
  | cons first rest ih =>
      rw [dropPlain]
      split
      · refine ends_ask.2 ⟨ih state, (ih _).imp ?_⟩
        rintro outcome state' ⟨hok, hdocs⟩
        exact ⟨hok, hdocs.trans (Store.documents_dropIndex store state first.name)⟩
      · exact ih state

/-- Whatever calls fail, an index is kept if it covers other fields than each of the plain
ones. -/
theorem ends_dropPlain (sound : store.Sound state) {listed : List Index}
    (named : ∀ index ∈ listed, store.Named index) :
    Ends store.backend (fun outcome state' => outcome = .ok () ∧ store.Sound state' ∧
      store.entity? state' = store.entity? state ∧
      ∀ index ∈ store.indexes state,
        (∀ plain ∈ listed, IsPlain plain → index.fields ≠ plain.fields) →
          index ∈ store.indexes state')
      (dropPlain listed) state := by
  induction listed generalizing state with
  | nil => exact ends_done.2 ⟨rfl, sound, rfl, fun index hindex _ => hindex⟩
  | cons first rest ih =>
      have hrest : ∀ index ∈ rest, store.Named index := fun index h =>
        named index (List.mem_cons_of_mem _ h)
      -- What is kept although the rest is dropped is kept whatever becomes of the first.
      have hskip := (ih sound hrest).imp fun outcome state' h =>
        show outcome = .ok () ∧ store.Sound state' ∧
            store.entity? state' = store.entity? state ∧
            ∀ index ∈ store.indexes state,
              (∀ plain ∈ first :: rest, IsPlain plain → index.fields ≠ plain.fields) →
                index ∈ store.indexes state' from
          ⟨h.1, h.2.1, h.2.2.1, fun index hindex hplain =>
            h.2.2.2 index hindex fun plain hmem => hplain plain (List.mem_cons_of_mem _ hmem)⟩
      rw [dropPlain]
      split
      · rename_i hfirst
        rw [Bool.and_eq_true, Bool.not_eq_true'] at hfirst
        refine ends_ask.2 ⟨hskip, ?_⟩
        refine (ih (Store.sound_answer sound (.dropIndex first.name)) hrest).imp ?_
        rintro outcome state' ⟨hok, hsound, hentities, hkept⟩
        have hentities' := Store.entity?_answer sound.orderly (.dropIndex first.name)
          fun _ h => by cases h
        refine ⟨hok, hsound, hentities.trans hentities', ?_⟩
        intro index hindex hplain
        refine hkept index ?_ fun plain hmem => hplain plain (List.mem_cons_of_mem _ hmem)
        exact Store.mem_indexes_dropIndex sound (named first List.mem_cons_self) hindex
          (hplain first List.mem_cons_self hfirst)
      · exact hskip

/-- What the repair does once it knows the indexes, none of which makes the key unique. -/
def repair (listed : List Index) : Session Unit := do
  dropPlain listed
  let groups : List DuplicateGroup ← .call .listDuplicates
  removeDuplicates groups
  .call (.createIndex keyField true)

/-- Which indexes count as listed. -/
def listedOr (answer : Except Error (List Index)) : List Index :=
  match answer with
  | .ok indexes => indexes
  | .error _ => []

theorem reconnect_eq :
    reconnect = .ask .listIndexes fun answer =>
      if (listedOr answer).any (·.isUniqueOn keyField) then pure ()
      else repair (listedOr answer) := by
  rw [reconnect]
  refine congrArg (Session.ask Request.listIndexes) (funext fun answer => ?_)
  cases answer <;> rfl

/-! ## What readers see -/

/-- Documents may be gone, but none that counts for its key. -/
structure Spares (store : Store) (before after : store.State) : Prop where
  documents : (store.documents after).Sublist (store.documents before)
  found : ∀ key, find? key (store.documents after) = find? key (store.documents before)

theorem Spares.of_eq {before after : store.State}
    (h : store.documents after = store.documents before) : Spares store before after := by
  constructor
  · rw [h]
  · rw [h]
    exact fun key => rfl

/-- Whatever was listed and whichever calls fail, a repair removes no document that counts. -/
theorem spares_repair (orderly : store.Orderly state) (listed : List Index) :
    Ends store.backend (fun _ after => Spares store state after) (repair listed) state := by
  refine ends_bind.2 (((ends_dropPlain_documents state listed).and
    (ends_of_kept Store.orderly_answer _ orderly)).imp ?_)
  rintro outcome dropped ⟨⟨rfl, hdocs⟩, horderly⟩
  refine before_ok.2 (ends_ask.2 ⟨ends_done.2 (Spares.of_eq hdocs), ?_⟩)
  obtain ⟨groups, hanswer, hrepeats⟩ := Store.answer_listDuplicates horderly
  rw [hanswer]
  show Ends store.backend (fun _ after => Spares store state after)
    (removeDuplicates groups >>= fun _ => .call (.createIndex keyField true)) dropped
  rw [removeDuplicates_eq]
  refine ends_bind.2 ((ends_removeExtra horderly _).imp ?_)
  rintro outcome removed ⟨rfl, -, -, gone, hgone, hdocs'⟩
  have hspares : Spares store state removed := by
    constructor
    · rw [hdocs', ← hdocs]
      exact List.filter_sublist
    · intro key
      rw [hdocs', find?_of_removed_extras horderly.ids hrepeats hgone, hdocs]
  -- Creating the index touches no document any more.
  refine before_ok.2 (ends_ask.2 ⟨ends_done.2 hspares, ends_done.2 ?_⟩)
  have hcreated := (Store.documents_createIndex store removed keyField true).1
  constructor
  · rw [hcreated]
    exact hspares.documents
  · rw [hcreated]
    exact hspares.found

/-- Whichever calls fail, reconnecting removes no document that counts. -/
theorem spares_reconnect (orderly : store.Orderly state) :
    Ends store.backend (fun _ after => Spares store state after) reconnect state := by
  rw [reconnect_eq]
  refine ends_ask.2 ⟨spares_repair orderly [], ?_⟩
  rw [Store.answer_listIndexes]
  show Ends _ _ (if (store.indexes state).any (·.isUniqueOn keyField) then pure ()
    else repair (store.indexes state)) state
  split
  · exact ends_done.2 (Spares.of_eq rfl)
  · exact spares_repair orderly _

/-! ## The whole repair -/

/-- What a repair keeps, beside the documents that count. -/
structure Repaired (store : Store) (before after : store.State) : Prop where
  sound : store.Sound after
  entities : store.entity? after = store.entity? before
  kept : ∀ index ∈ store.indexes before,
    index.unique = true ∨ index.leadsWith keyField = false → index ∈ store.indexes after

/-- A unique index on the key alone is reported. -/
def HasUniqueIndex (store : Store) (state : store.State) : Prop :=
  ∃ index ∈ store.indexes state, index.isUniqueOn keyField = true

/-- How a repair ends: if it ends well, the unique index is there and no key is stored twice. -/
structure RepairEnds (store : Store) (before : store.State) (outcome : Except Error Unit)
    (after : store.State) : Prop extends Repaired store before after where
  established : outcome = .ok () →
    HasUniqueIndex store after ∧ KeysDistinct (store.documents after)

/-- A repair may end with an error at any time. -/
theorem Repaired.failed {before after : store.State} (h : Repaired store before after) (e : Error) :
    RepairEnds store before (.error e) after :=
  ⟨h, fun he => by cases he⟩

theorem any_isUniqueOn_iff :
    (store.indexes state).any (·.isUniqueOn keyField) = true ↔ HasUniqueIndex store state :=
  List.any_eq_true

/-- After the duplicates were removed, the index is created if no key is stored twice. -/
theorem ends_createIndex {before : store.State} (repaired : Repaired store before state) :
    Ends store.backend (RepairEnds store before) (.call (.createIndex keyField true)) state := by
  refine ends_ask.2 ⟨ends_done.2 (repaired.failed _), ends_done.2 ?_⟩
  have hsound := Store.sound_answer repaired.sound (.createIndex keyField true)
  have hentities := Store.entity?_answer repaired.sound.orderly (.createIndex keyField true)
    fun _ h => by cases h
  rcases Store.createIndex_key repaired.sound with
    ⟨hkeys, next, hanswer, hdocs, hindexes, hunique⟩ | ⟨-, hanswer⟩
  · rw [hanswer] at hsound hentities ⊢
    refine ⟨⟨hsound, hentities.trans repaired.entities, ?_⟩, fun _ => ⟨hunique, ?_⟩⟩
    · intro index hindex hkeep
      exact hindexes (repaired.kept index hindex hkeep)
    · rw [hdocs]
      exact hkeys
  · rw [hanswer]
    exact repaired.failed _

theorem ends_repair (sound : store.Sound state) {listed : List Index}
    (named : ∀ index ∈ listed, store.Named index)
    (apart : ∀ index ∈ store.indexes state,
      index.unique = true ∨ index.leadsWith keyField = false →
        ∀ plain ∈ listed, IsPlain plain → index.fields ≠ plain.fields) :
    Ends store.backend (RepairEnds store state) (repair listed) state := by
  refine ends_bind.2 ((ends_dropPlain sound named).imp ?_)
  rintro outcome dropped ⟨rfl, hsound, hentities, hkept⟩
  have hdropped : Repaired store state dropped :=
    ⟨hsound, hentities, fun index hindex hkeep => hkept index hindex (apart index hindex hkeep)⟩
  refine ends_ask.2 ⟨ends_done.2 (hdropped.failed _), ?_⟩
  obtain ⟨groups, hanswer, -⟩ := Store.answer_listDuplicates hsound.orderly
  rw [hanswer]
  show Ends store.backend (RepairEnds store state)
    (removeDuplicates groups >>= fun _ => .call (.createIndex keyField true)) dropped
  rw [removeDuplicates_eq]
  refine ends_bind.2 (((ends_removeExtra hsound.orderly _).and
    (ends_of_kept Store.sound_answer _ hsound)).imp ?_)
  rintro outcome removed ⟨⟨rfl, hentities', hindexes, -⟩, hsound'⟩
  refine ends_createIndex ⟨hsound', hentities'.trans hentities, fun index hindex hkeep => ?_⟩
  rw [hindexes]
  exact hdropped.kept index hindex hkeep

/-- If no call fails, a repair succeeds. -/
theorem run_none_repair (sound : store.Sound state) {listed : List Index}
    (named : ∀ index ∈ listed, store.Named index) :
    ((repair listed).run store.backend Faults.none state).1 = .ok () := by
  obtain ⟨hok, hsound, -⟩ := ends_dropPlain sound named Faults.none
  rw [repair, run_none_bind]
  cases hdrop : (dropPlain listed).run store.backend Faults.none state with
  | mk outcome dropped =>
      rw [hdrop] at hok hsound
      dsimp only at hok hsound
      subst hok
      obtain ⟨groups, hanswer, hrepeats⟩ := Store.answer_listDuplicates hsound.orderly
      obtain ⟨hok', -⟩ := ends_removeExtra hsound.orderly (extras groups) Faults.none
      have hsound' := ends_of_kept Store.sound_answer (removeExtra (extras groups)) hsound
        Faults.none
      have hdocs := run_none_removeExtra dropped (extras groups)
      have hcall : ((call .listDuplicates : Session (List DuplicateGroup)) >>= fun groups =>
            removeDuplicates groups >>= fun _ => call (.createIndex keyField true)).run
              store.backend Faults.none dropped
          = (removeExtra (extras groups) >>= fun _ => call (.createIndex keyField true)).run
              store.backend Faults.none dropped := by
        rw [run_none_bind, call, run_none_ask, hanswer, run_done]
        dsimp only
        rw [removeDuplicates_eq]
      show (run store.backend Faults.none _ dropped).1 = .ok ()
      rw [hcall, run_none_bind]
      cases hremove : (removeExtra (extras groups)).run store.backend Faults.none dropped with
      | mk outcome removed =>
          rw [hremove] at hok' hsound' hdocs
          dsimp only at hok' hsound' hdocs
          subst hok'
          have hkeys := keysDistinct_of_removed_extras hsound.ids hrepeats
          rw [← hdocs] at hkeys
          show ((call (.createIndex keyField true) : Session Unit).run store.backend
            Faults.none removed).1 = .ok ()
          rw [call, run_none_ask, run_done]
          rcases Store.createIndex_key hsound' with ⟨-, next, hcreate, -⟩ | ⟨hnot, -⟩
          · rw [hcreate]
          · exact absurd hkeys hnot

/-! ## Reconnecting -/

/-- Where no index makes the key unique, no index on the key is left to be kept. -/
theorem fields_ne_of_not_hasUniqueIndex (sound : store.Sound state)
    (hnone : ¬ HasUniqueIndex store state) {index plain : Index}
    (hindex : index ∈ store.indexes state)
    (hkeep : index.unique = true ∨ index.leadsWith keyField = false) (hplain : IsPlain plain) :
    index.fields ≠ plain.fields := by
  intro heq
  have hleads : index.leadsWith keyField = true := by
    rw [Index.leadsWith, heq]
    exact hplain.2
  rcases hkeep with hunique | hother
  · exact hnone ⟨index, hindex, (sound.named index hindex).isUniqueOn hleads hunique⟩
  · rw [hleads] at hother
    exact absurd hother (by decide)

/-- Whichever calls of a repair fail, it keeps what `Repaired` says; and if it ends well, the
unique index is there and no key is stored twice. -/
theorem ends_reconnect (sound : store.Sound state)
    (held : HasUniqueIndex store state → KeysDistinct (store.documents state)) :
    Ends store.backend (RepairEnds store state) reconnect state := by
  rw [reconnect_eq]
  refine ends_ask.2 ⟨?_, ?_⟩
  · -- No index counts as listed, and none is dropped.
    exact ends_repair sound (fun _ h => absurd h List.not_mem_nil)
      (fun _ _ _ _ h => absurd h List.not_mem_nil)
  · rw [Store.answer_listIndexes]
    show Ends _ _ (if (store.indexes state).any (·.isUniqueOn keyField) then pure ()
      else repair (store.indexes state)) state
    by_cases hunique : HasUniqueIndex store state
    · rw [if_pos (any_isUniqueOn_iff.2 hunique)]
      have hrepaired : Repaired store state state :=
        ⟨sound, rfl, fun _ h _ => h⟩
      exact ends_done.2 ⟨hrepaired, fun _ => ⟨hunique, held hunique⟩⟩
    · rw [if_neg fun h => hunique (any_isUniqueOn_iff.1 h)]
      exact ends_repair sound sound.named fun index hindex hkeep plain _ hplain =>
        fields_ne_of_not_hasUniqueIndex sound hunique hindex hkeep hplain

/-- If no call fails, the service reconnects. -/
theorem run_none_reconnect (sound : store.Sound state) :
    (reconnect.run store.backend Faults.none state).1 = .ok () := by
  rw [reconnect_eq, run_none_ask, Store.answer_listIndexes]
  show ((if (store.indexes state).any (·.isUniqueOn keyField) then pure ()
    else repair (store.indexes state)).run store.backend Faults.none state).1 = .ok ()
  split
  · rfl
  · exact run_none_repair sound sound.named

/-- Where the unique index is there, reconnecting does nothing. -/
theorem run_none_reconnect_of_hasUniqueIndex (h : HasUniqueIndex store state) :
    reconnect.run store.backend Faults.none state = (.ok (), state) := by
  rw [reconnect_eq, run_none_ask, Store.answer_listIndexes]
  show (if (store.indexes state).any (·.isUniqueOn keyField) then pure ()
    else repair (store.indexes state)).run store.backend Faults.none state = (.ok (), state)
  rw [if_pos (any_isUniqueOn_iff.2 h)]
  rfl

/-- Over either store and whichever calls fail: a `reconnect` that ends well leaves a unique
index on exactly the key, no key stored twice, and every index that is unique or does not lead
with the key. If no call fails it ends well, and doing it again changes neither documents nor
indexes. All this takes a reachable state in which the unique index, if there is one, comes
with no key stored twice. -/
theorem reconnect_establishes_uniqueness (store : Store) {state : store.State}
    (reachable : store.Reachable state)
    (held : (∃ index ∈ store.indexes state, index.unique = true ∧ index.fields = [keyField]) →
      KeysDistinct (store.documents state)) :
    (∀ faults after, reconnect.run store.backend faults state = (.ok (), after) →
      ∃ reported, store.backend.answer after .listIndexes = (.ok reported, after) ∧
        (∃ index ∈ reported, index.unique = true ∧ index.fields = [keyField]) ∧
        KeysDistinct (store.documents after) ∧
        ∀ index ∈ store.indexes state,
          index.unique = true ∨ index.leadsWith keyField = false → index ∈ reported) ∧
    ∃ after again, reconnect.run store.backend Faults.none state = (.ok (), after) ∧
      reconnect.run store.backend Faults.none after = (.ok (), again) ∧
      store.documents again = store.documents after ∧
      store.indexes again = store.indexes after := by
  have sound : store.Sound state := reachable.sound
  have hheld : HasUniqueIndex store state → KeysDistinct (store.documents state) := by
    rintro ⟨index, hindex, hunique⟩
    exact held ⟨index, hindex, Index.isUniqueOn_iff.1 hunique⟩
  have hends := ends_reconnect sound hheld
  constructor
  · intro faults after hrun
    have hafter := hends faults
    rw [hrun] at hafter
    obtain ⟨⟨index, hindex, hunique⟩, hkeys⟩ := hafter.established rfl
    refine ⟨store.indexes after, Store.answer_listIndexes store after, ?_, hkeys, hafter.kept⟩
    exact ⟨index, hindex, Index.isUniqueOn_iff.1 hunique⟩
  · have hok := run_none_reconnect sound
    have hafter := hends Faults.none
    rw [hok] at hafter
    refine ⟨_, _, Prod.ext hok rfl, ?_, rfl, rfl⟩
    exact run_none_reconnect_of_hasUniqueIndex (hafter.established rfl).1

/-- A key that is stored twice, without any index. -/
theorem reconnect_establishes_uniqueness_of_repeated_key :
    ∃ m, Store.memory.Reachable m ∧ m.documents.map (·.key) = ["a", "a"] ∧
      ∃ after, reconnect.run Memory.backend Faults.none m = (.ok (), after) ∧
        KeysDistinct after.documents := by
  have reachable : Store.memory.Reachable _ :=
    .answer (.saveSetting ⟨none, "a", .bool true⟩)
      (.answer (.saveSetting ⟨none, "a", .null⟩) .empty)
  refine ⟨_, reachable, rfl, ?_⟩
  obtain ⟨hevery, after, again, hrun, -⟩ := reconnect_establishes_uniqueness .memory reachable
    fun ⟨index, hindex, _⟩ => absurd hindex List.not_mem_nil
  obtain ⟨reported, -, -, hkeys, -⟩ := hevery Faults.none after hrun
  exact ⟨after, hrun, hkeys⟩

end Service

end SettingStore
