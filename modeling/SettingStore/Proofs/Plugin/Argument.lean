import SettingStore.Plugin.Catalog
import SettingStore.Proofs.Text.NormalEntries
import SettingStore.Proofs.Text.Spelling

set_option autoImplicit false

/-! # Plugins as arguments

An argument gives a plugin by its name and the names of what it depends on. There are many ways to
write one plugin: with blanks around each name, and with any number of empty items between the
commas (`Catalog.Describes`). Reading an argument answers the one plugin that it describes, and
fails only if there is no name (`entry?_reads_descriptions`).
-/

namespace SettingStore.Catalog

open Text (isBlank trimChars segments Wraps)

/-! ## Descriptions of a plugin -/

/-- The text is not empty, and has no blank at its ends. -/
def Unpadded (s : String) : Prop :=
  s ≠ "" ∧ (∀ c, s.toList.head? = some c → isBlank c = false) ∧
    ∀ c, s.toList.getLast? = some c → isBlank c = false

/-- A name of a plugin that an argument can give. -/
def IsName (s : String) : Prop := Unpadded s ∧ '=' ∉ s.toList

/-- A name of a dependency that an argument can give. -/
def IsDependency (s : String) : Prop := Unpadded s ∧ ',' ∉ s.toList

/-- The items list the dependencies: each of them is an item, with blanks around it or without,
and all other items are blank. -/
inductive Lists : List (List Char) → List String → Prop
  | nil : Lists [] []
  | dependency {d : String} {item : List Char} {items : List (List Char)} {ds : List String}
      (wraps : Wraps d.toList item) (rest : Lists items ds) : Lists (item :: items) (d :: ds)
  | blank {item : List Char} {items : List (List Char)} {ds : List String}
      (blank : ∀ c ∈ item, isBlank c = true) (rest : Lists items ds) : Lists (item :: items) ds

/-- The argument is the name, and after an equals sign the dependencies with commas between them,
with blanks and empty items anywhere; without dependencies the equals sign may be missing. -/
inductive Describes (argument name : String) : List String → Prop
  | alone (wraps : Wraps name.toList argument.toList) : Describes argument name []
  | list {before : List Char} {items : List (List Char)} {ds : List String}
      (wraps : Wraps name.toList before) (lists : Lists items ds)
      (text : argument.toList = before ++ '=' :: [','].intercalate items) :
      Describes argument name ds

/-! ## Trimmed texts -/

variable {cs : List Char} {s argument name : String} {items : List (List Char)}
  {ds : List String}

/-- What trimming leaves of a text, unless it is blank. -/
theorem unpadded_trimChars (h : trimChars cs ≠ []) : Unpadded (String.ofList (trimChars cs)) := by
  unfold Unpadded
  rw [String.toList_ofList, ne_eq, ← String.toList_inj, String.toList_ofList]
  exact ⟨h, fun _ => Text.head?_trimChars, fun _ => Text.getLast?_trimChars⟩

theorem trimChars_eq_toList_iff (h : Unpadded s) : trimChars cs = s.toList ↔ Wraps s.toList cs :=
  Text.trimChars_eq_iff h.2.1 h.2.2

/-- Of a blank text nothing is left. -/
theorem trimChars_eq_nil_iff : trimChars cs = [] ↔ ∀ c ∈ cs, isBlank c = true := by
  rw [Text.trimChars_eq_iff (by simp) (by simp)]
  constructor
  · rintro ⟨before, after, hbefore, hafter, rfl⟩
    intro c hc
    rw [List.append_nil, List.mem_append] at hc
    exact hc.elim (hbefore c) (hafter c)
  · intro h
    exact ⟨cs, [], h, by simp, by simp⟩

/-- A character that is no blank is around no text. -/
theorem mem_of_wraps {inner : List Char} {c : Char} (h : Wraps inner cs) (hc : c ∈ cs)
    (visible : isBlank c = false) : c ∈ inner := by
  obtain ⟨before, after, hbefore, hafter, rfl⟩ := h
  rw [List.mem_append, List.mem_append] at hc
  rcases hc with (hc | hc) | hc
  · rw [hbefore c hc] at visible
    cases visible
  · exact hc
  · rw [hafter c hc] at visible
    cases visible

/-! ## Dependencies -/

/-- The dependencies in a list of items. -/
def listed (items : List (List Char)) : List String :=
  ((items.map trimChars).filter (!·.isEmpty)).map String.ofList

theorem listed_cons (item : List Char) (items : List (List Char)) :
    listed (item :: items) = if trimChars item = [] then listed items
      else String.ofList (trimChars item) :: listed items := by
  unfold listed
  rw [List.map_cons, List.filter_cons]
  cases htrim : trimChars item <;> rfl

/-- Items are read as the dependencies that they list. -/
theorem listed_of_lists (h : Lists items ds) (dependencies : ∀ d ∈ ds, IsDependency d) :
    listed items = ds := by
  induction h with
  | nil => rfl
  | @dependency d item items ds wraps rest ih =>
      have hd := dependencies d List.mem_cons_self
      have htrim : trimChars item = d.toList := (trimChars_eq_toList_iff hd.1).2 wraps
      have hne : d.toList ≠ [] := fun hnil => hd.1.1 (String.toList_eq_nil_iff.1 hnil)
      rw [listed_cons, htrim, if_neg hne, String.ofList_toList,
        ih fun e he => dependencies e (List.mem_cons_of_mem _ he)]
  | blank blank rest ih =>
      rw [listed_cons, if_pos (trimChars_eq_nil_iff.2 blank), ih dependencies]

/-- Whatever the items are, they list what is read. -/
theorem lists_listed (items : List (List Char)) : Lists items (listed items) := by
  induction items with
  | nil => exact .nil
  | cons item items ih =>
      rw [listed_cons]
      split_ifs with htrim
      · exact .blank (trimChars_eq_nil_iff.1 htrim) ih
      · refine .dependency ?_ ih
        rw [String.toList_ofList]
        exact Text.wraps_trimChars item

theorem isDependency_of_mem_listed (plain : ∀ item ∈ items, ',' ∉ item) :
    ∀ d ∈ listed items, IsDependency d := by
  intro d hd
  simp only [listed, List.mem_map, List.mem_filter] at hd
  obtain ⟨_, ⟨⟨item, hitem, rfl⟩, hne⟩, rfl⟩ := hd
  refine ⟨unpadded_trimChars fun hnil => by simp [hnil] at hne, fun hcomma => ?_⟩
  rw [String.toList_ofList] at hcomma
  obtain ⟨before, after, -, -, hwraps⟩ := Text.wraps_trimChars item
  apply plain item hitem
  rw [hwraps]
  simp [hcomma]

/-- An item that lists dependencies without commas has no comma. -/
theorem not_comma_of_lists (h : Lists items ds) (dependencies : ∀ d ∈ ds, IsDependency d) :
    ∀ item ∈ items, ',' ∉ item := by
  induction h with
  | nil => exact fun _ h => absurd h List.not_mem_nil
  | @dependency d item items ds wraps rest ih =>
      refine List.forall_mem_cons.2 ⟨fun hcomma => ?_,
        ih fun e he => dependencies e (List.mem_cons_of_mem _ he)⟩
      exact (dependencies d List.mem_cons_self).2 (mem_of_wraps wraps hcomma (by decide))
  | blank blank rest ih =>
      refine List.forall_mem_cons.2 ⟨fun hcomma => ?_, ih dependencies⟩
      exact absurd (blank ',' hcomma) (by decide)

/-- Items that were joined by commas are cut apart again; if there are none, one empty item is
found. -/
theorem listed_segments_intercalate (plain : ∀ item ∈ items, ',' ∉ item) :
    listed (segments (· == ',') ([','].intercalate items)) = listed items := by
  rw [Text.segments_eq_splitOnP, ← List.splitOn_eq_splitOnP]
  by_cases hne : items = []
  · rw [hne]
    rfl
  · rw [List.splitOn_intercalate ',' plain hne]

/-! ## Reading an argument -/

/-- The name in an argument and the items after it, before they are looked at. -/
theorem entry?_eq (argument : String) :
    entry? argument =
      if trimChars (argument.toList.takeWhile (· != '=')) = [] then none
      else some (String.ofList (trimChars (argument.toList.takeWhile (· != '='))),
        listed (segments (· == ',') ((argument.toList.dropWhile (· != '=')).drop 1))) := by
  unfold entry? listed
  simp only [List.isEmpty_iff]

theorem entry?_eq_none_iff (argument : String) :
    entry? argument = none ↔ ∀ c ∈ argument.toList.takeWhile (· != '='), isBlank c = true := by
  rw [entry?_eq, ← trimChars_eq_nil_iff]
  split_ifs with h
  · exact iff_of_true rfl h
  · exact iff_of_false (by simp) h

/-- The text before the first equals sign, and what follows it, if there is one. -/
theorem equals_cases (cs : List Char) :
    (cs.takeWhile (· != '=') = cs ∧ cs.dropWhile (· != '=') = []) ∨
      cs = cs.takeWhile (· != '=') ++ '=' :: (cs.dropWhile (· != '=')).drop 1 := by
  have hsplit := List.takeWhile_append_dropWhile (p := (· != '=')) (l := cs)
  cases hrest : cs.dropWhile (· != '=') with
  | nil =>
      rw [hrest, List.append_nil] at hsplit
      exact Or.inl ⟨hsplit, rfl⟩
  | cons c rest =>
      have hc : c = '=' := by
        have hnot := List.head?_dropWhile_not (· != '=') cs
        rw [hrest] at hnot
        simpa using hnot
      rw [hrest, hc] at hsplit
      exact Or.inr hsplit.symm

/-- What is read is a plugin that the argument describes. -/
theorem describes_of_entry? (h : entry? argument = some (name, ds)) :
    IsName name ∧ (∀ d ∈ ds, IsDependency d) ∧ Describes argument name ds := by
  rw [entry?_eq] at h
  split_ifs at h with htrim
  obtain ⟨rfl, rfl⟩ := Prod.mk.inj (Option.some.inj h)
  have hwraps := Text.wraps_trimChars (argument.toList.takeWhile (· != '='))
  have hname : '=' ∉ trimChars (argument.toList.takeWhile (· != '=')) := by
    intro hequals
    obtain ⟨before, after, -, -, hsplit⟩ := hwraps
    have hmem : '=' ∈ argument.toList.takeWhile (· != '=') := by
      rw [hsplit]
      simp [hequals]
    exact absurd (List.mem_takeWhile_imp hmem) (by decide)
  refine ⟨⟨unpadded_trimChars htrim, by rwa [String.toList_ofList]⟩, ?_, ?_⟩
  · refine isDependency_of_mem_listed fun item hitem hcomma => ?_
    exact absurd (Text.not_separates_of_mem_segments hitem ',' hcomma) (by decide)
  · rw [← String.toList_ofList (l := trimChars _)] at hwraps
    rcases equals_cases argument.toList with ⟨hall, hnothing⟩ | hsplit
    · rw [hall] at hwraps ⊢
      rw [hnothing]
      exact .alone hwraps
    · refine .list hwraps (lists_listed _) ?_
      rw [Text.segments_eq_splitOnP, ← List.splitOn_eq_splitOnP, List.intercalate_splitOn]
      exact hsplit

/-- A plugin is read from each of its descriptions. -/
theorem entry?_of_describes (hname : IsName name) (dependencies : ∀ d ∈ ds, IsDependency d)
    (h : Describes argument name ds) : entry? argument = some (name, ds) := by
  have hne : name.toList ≠ [] := fun hnil => hname.1.1 (String.toList_eq_nil_iff.1 hnil)
  -- The first equals sign stands behind the name.
  have hplain : ∀ {before : List Char}, Wraps name.toList before →
      ∀ c ∈ before, (c != '=') = true := by
    intro before wraps c hc
    rw [bne_iff_ne]
    rintro rfl
    exact hname.2 (mem_of_wraps wraps hc (by decide))
  rw [entry?_eq]
  cases h with
  | alone wraps =>
      rw [List.takeWhile_eq_self_iff.2 (hplain wraps), List.dropWhile_eq_nil_iff.2 (hplain wraps),
        (trimChars_eq_toList_iff hname.1).2 wraps, if_neg hne, String.ofList_toList]
      rfl
  | @list before items _ wraps lists text =>
      have htake : argument.toList.takeWhile (· != '=') = before := by
        rw [text, List.takeWhile_append_of_pos (hplain wraps), List.takeWhile_cons_of_neg (by simp),
          List.append_nil]
      have hdrop : argument.toList.dropWhile (· != '=') = '=' :: [','].intercalate items := by
        rw [text, List.dropWhile_append_of_pos (hplain wraps), List.dropWhile_cons_of_neg (by simp)]
      rw [htake, hdrop, (trimChars_eq_toList_iff hname.1).2 wraps, if_neg hne,
        String.ofList_toList, List.drop_one, List.tail_cons,
        listed_segments_intercalate (not_comma_of_lists lists dependencies),
        listed_of_lists lists dependencies]

/-- Reading an argument inverts writing it. A plugin is read from an argument exactly if its name
and its dependencies are ones that arguments can give and the argument describes it; and nothing
is read exactly if there are only blanks before the first equals sign, or in the whole argument if
it has none. -/
theorem entry?_reads_descriptions :
    (∀ (argument name : String) (dependencies : List String),
      entry? argument = some (name, dependencies) ↔
        IsName name ∧ (∀ d ∈ dependencies, IsDependency d) ∧
          Describes argument name dependencies) ∧
    ∀ argument : String, entry? argument = none ↔
      ∀ c ∈ argument.toList.takeWhile (· != '='), isBlank c = true := by
  refine ⟨fun argument name dependencies => ?_, entry?_eq_none_iff⟩
  constructor
  · exact describes_of_entry?
  · rintro ⟨hname, hdependencies, hdescribes⟩
    exact entry?_of_describes hname hdependencies hdescribes

/-- Empty items are left out, and what follows the first equals sign is a list. -/
example : entry? " thumbnails =worker,, job queue , a=b" =
    some ("thumbnails", ["worker", "job queue", "a=b"]) := by decide

end SettingStore.Catalog
