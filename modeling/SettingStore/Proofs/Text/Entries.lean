import Mathlib.Data.List.TakeWhile
import SettingStore.Proofs.Store.Texts
import SettingStore.Text.Entries

set_option autoImplicit false

/-! # Lists of entries, written and read again

Entries that were joined are read as they were, but for empty ones, which leave a comma behind
that the next reading skips (`entries_joinEntries`). A normal form is therefore its own normal
form exactly if its entries are not in part empty (`normalEntries_joinEntries`,
`joinEntries_filter_eq_iff`).
-/

namespace SettingStore.Text

variable {e s : String} {es : List String}

/-! ## Joining and cutting -/

/-- There is neither a comma nor a blank in the text. -/
def Plain (s : String) : Prop := ∀ c ∈ s.toList, separatesEntries c = false

theorem joinEntries_cons_cons (e next : String) (rest : List String) :
    (joinEntries (e :: next :: rest)).toList
      = e.toList ++ ',' :: ' ' :: (joinEntries (next :: rest)).toList := by
  simp [joinEntries]

theorem joinEntries_singleton (e : String) : joinEntries [e] = e := by
  simp [joinEntries]

/-- The entries of a text contain neither commas nor blanks, and none is empty. -/
theorem of_mem_entries (h : e ∈ entries s) : Plain e ∧ e ≠ "" := by
  obtain ⟨word, hword, rfl⟩ := List.mem_map.1 h
  obtain ⟨hsegment, hne⟩ := List.mem_filter.1 hword
  constructor
  · intro c hc
    rw [String.toList_ofList] at hc
    exact not_separates_of_mem_segments hsegment c hc
  · intro hempty
    rw [← String.toList_inj, String.toList_ofList, String.toList_empty] at hempty
    rw [hempty] at hne
    exact absurd hne (by decide)

/-- The first segment is an entry, unless it is empty. -/
theorem entries_of_segments {rest : List (List Char)}
    (h : segments separatesEntries s.toList = e.toList :: rest) :
    entries s = [e].filter (· ≠ "")
      ++ (rest.filter (!·.isEmpty)).map String.ofList := by
  rw [entries, words, h]
  by_cases he : e = ""
  · rw [he, String.toList_empty]
    rfl
  · have hne : e.toList ≠ [] := fun hnil => he (String.toList_eq_nil_iff.1 hnil)
    rw [List.filter_cons_of_pos (by simp [hne]), List.filter_cons_of_pos (by simp [he]),
      List.map_cons, String.ofList_toList]
    rfl

/-- A text without commas and blanks is an entry, unless it is empty. -/
theorem entries_of_plain (plain : Plain e) : entries e = [e].filter (· ≠ "") :=
  (entries_of_segments (segments_eq_singleton plain)).trans (List.append_nil _)

/-- What stands before a comma and a space is an entry, unless it is empty. -/
theorem entries_append {rest : String} (plain : Plain e)
    (h : s.toList = e.toList ++ ',' :: ' ' :: rest.toList) :
    entries s = [e].filter (· ≠ "") ++ entries rest := by
  have hspace : segments separatesEntries (' ' :: rest.toList)
      = [] :: segments separatesEntries rest.toList :=
    segments_append (fun _ hc => absurd hc List.not_mem_nil) (by decide) rest.toList
  have hsegments : segments separatesEntries s.toList
      = e.toList :: [] :: segments separatesEntries rest.toList := by
    rw [h, segments_append plain (by decide), hspace]
  rw [entries_of_segments hsegments]
  rfl

/-- Entries that were joined are read as they were, but for empty ones. -/
theorem entries_joinEntries (plain : ∀ e ∈ es, Plain e) :
    entries (joinEntries es) = es.filter (· ≠ "") := by
  induction es with
  | nil => rfl
  | cons e rest ih =>
      have he : Plain e := plain e List.mem_cons_self
      cases rest with
      | nil => rw [joinEntries_singleton, entries_of_plain he]
      | cons next others =>
          rw [entries_append he (joinEntries_cons_cons e next others),
            ih fun d hd => plain d (List.mem_cons_of_mem _ hd), ← List.filter_append,
            List.singleton_append]

/-- There is a comma between any two entries. -/
theorem count_comma_joinEntries (plain : ∀ e ∈ es, Plain e) (ne : es ≠ []) :
    (joinEntries es).toList.count ',' + 1 = es.length := by
  induction es with
  | nil => exact absurd rfl ne
  | cons e rest ih =>
      have he : e.toList.count ',' = 0 :=
        List.count_eq_zero.2 fun hc => absurd (plain e List.mem_cons_self _ hc) (by decide)
      cases rest with
      | nil => rw [joinEntries_singleton, he, List.length_singleton]
      | cons next others =>
          have hrest := ih (fun d hd => plain d (List.mem_cons_of_mem _ hd))
            (List.cons_ne_nil _ _)
          rw [joinEntries_cons_cons, List.count_append, he, List.count_cons_self,
            List.count_cons_of_ne (by decide), List.length_cons, ← hrest]
          omega

/-- A list without repeats that has nothing but `a` is the list of `a` alone. -/
theorem eq_singleton_of_nodup {a : String} (nodup : es.Nodup) (ha : a ∈ es)
    (all : ∀ e ∈ es, e = a) : es = [a] := by
  cases es with
  | nil => exact absurd ha List.not_mem_nil
  | cons e rest =>
      have hrest : rest = [] := List.eq_nil_iff_forall_not_mem.2 fun d hd => by
        have heq : d = e :=
          (all d (List.mem_cons_of_mem _ hd)).trans (all e List.mem_cons_self).symm
        exact (List.nodup_cons.1 nodup).1 (heq ▸ hd)
      rw [hrest, all e List.mem_cons_self]

/-- Leaving out the empty entries is seen exactly if there are other ones as well. -/
theorem joinEntries_filter_eq_iff (plain : ∀ e ∈ es, Plain e) (nodup : es.Nodup) :
    joinEntries (es.filter (· ≠ "")) = joinEntries es ↔ ¬ ("" ∈ es ∧ ∃ e ∈ es, e ≠ "") := by
  constructor
  · rintro hsame ⟨hempty, e, he, hne⟩
    have hcount := count_comma_joinEntries plain (List.ne_nil_of_mem he)
    have hplain : ∀ d ∈ es.filter (· ≠ ""), Plain d :=
      fun d hd => plain d (List.mem_filter.1 hd).1
    have hcount' := count_comma_joinEntries hplain
      (List.ne_nil_of_mem (List.mem_filter.2 ⟨he, decide_eq_true hne⟩))
    have hless : (es.filter (· ≠ "")).length < es.length :=
      List.length_filter_lt_length_iff_exists.2 ⟨"", hempty, by decide⟩
    rw [hsame] at hcount'
    omega
  · intro hnot
    by_cases hempty : "" ∈ es
    · have hall : ∀ e ∈ es, e = "" := by
        intro e he
        exact Decidable.byContradiction fun hne => hnot ⟨hempty, e, he, hne⟩
      rw [eq_singleton_of_nodup nodup hempty hall]
      rfl
    · have hall : ∀ e ∈ es, decide (e ≠ "") = true := by
        intro e he
        rw [decide_eq_true_eq]
        rintro rfl
        exact hempty he
      rw [List.filter_eq_self.2 hall]

/-! ## Normal forms -/

theorem mem_eraseDups_map {map : String → String} {l : List String} :
    e ∈ (l.map map).eraseDups ↔ ∃ d ∈ l, map d = e := by
  rw [List.mem_eraseDups, List.mem_map]

theorem nodup_eraseDups (l : List String) : l.eraseDups.Nodup := by
  induction hn : l.length using Nat.strongRecOn generalizing l with
  | ind n ih =>
      cases l with
      | nil => exact List.nodup_nil
      | cons e rest =>
          have hshorter := List.length_filter_le (fun d => !d == e) rest
          rw [List.length_cons] at hn
          rw [List.eraseDups_cons, List.nodup_cons, List.mem_eraseDups]
          exact ⟨by simp, ih _ (by omega) _ rfl⟩

theorem eraseDups_eq_self {l : List String} (nodup : l.Nodup) : l.eraseDups = l := by
  induction l with
  | nil => rfl
  | cons e rest ih =>
      obtain ⟨hnot, hrest⟩ := List.nodup_cons.1 nodup
      have hself : rest.filter (fun d => !d == e) = rest :=
        List.filter_eq_self.2 fun d hd => by
          simp only [Bool.not_eq_true', beq_eq_false_iff_ne]
          rintro rfl
          exact hnot hd
      rw [List.eraseDups_cons, hself, ih hrest]

/-- The normal form of joined entries is joined again from those that are not empty. -/
theorem normalEntries_joinEntries {map : String → String} (plain : ∀ e ∈ es, Plain e)
    (nodup : es.Nodup) (kept : ∀ e ∈ es, map e = e) :
    normalEntries map (joinEntries es) = joinEntries (es.filter (· ≠ "")) := by
  have hmap : (es.filter (· ≠ "")).map map = es.filter (· ≠ "") := by
    refine (List.map_congr_left fun e he => ?_).trans (List.map_id _)
    exact kept e (List.mem_filter.1 he).1
  rw [normalEntries, entries_joinEntries plain, hmap, eraseDups_eq_self (nodup.filter _)]

/-! ## Slashes -/

/-- Without its last slashes a text ends with none. -/
theorem dropSlashes_dropSlashes (s : String) : dropSlashes (dropSlashes s) = dropSlashes s := by
  rw [dropSlashes, dropSlashes, String.toList_ofList,
    dropTrailing_eq_self fun _ => not_of_getLast?_dropTrailing]

theorem plain_dropSlashes (plain : Plain s) : Plain (dropSlashes s) := by
  intro c hc
  rw [dropSlashes, String.toList_ofList] at hc
  have hstart := dropTrailing_prefix (· == '/') s.toList
  exact plain c (hstart.subset hc)

theorem dropSlashes_eq_empty_iff : dropSlashes e = "" ↔ ∀ c ∈ e.toList, c = '/' := by
  rw [dropSlashes, ← String.toList_inj, String.toList_ofList, String.toList_empty, dropTrailing,
    List.reverse_eq_nil_iff, List.dropWhile_eq_nil_iff]
  simp only [List.mem_reverse, beq_iff_eq]

end SettingStore.Text
