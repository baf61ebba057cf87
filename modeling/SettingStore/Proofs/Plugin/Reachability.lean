import Mathlib.Logic.Relation
import SettingStore.Plugin.Resolution

set_option autoImplicit false

/-! # The plugins that are needed

A plugin depends on the installed plugins that it lists (`DependsOn`). Enabling some names
needs the installed ones among them and all that those depend on, directly or not (`Needed`).
The closure has exactly the needed plugins, each once (`mem_closure`, `closure_nodup`), and it
is the same wherever the same plugins are needed (`closure_congr`).
-/

namespace SettingStore.Catalog

variable {catalog : Catalog} {names : List String} {p d : String}

/-! ## Dependencies -/

/-- The plugin lists the name among its dependencies, and that is installed. -/
def DependsOn (catalog : Catalog) (p d : String) : Prop :=
  (∃ listed, (p, listed) ∈ catalog.entries ∧ d ∈ listed) ∧ d ∈ catalog.names

/-- The installed plugins among the names, and what they depend on, and so on. -/
inductive Needed (catalog : Catalog) (names : List String) : String → Prop where
  | asked {p : String} (named : p ∈ names) (installed : p ∈ catalog.names) :
      Needed catalog names p
  | dependency {p d : String} (needed : Needed catalog names p)
      (depends : catalog.DependsOn p d) : Needed catalog names d

/-- The plugin depends on itself, in one or more steps. -/
def OnCycle (catalog : Catalog) (p : String) : Prop := Relation.TransGen catalog.DependsOn p p

/-- The entry of a plugin is the only one with its name. -/
theorem lookup_eq_some_iff {entries : List (String × List String)}
    (distinct : (entries.map (·.1)).Nodup) {listed : List String} :
    entries.lookup p = some listed ↔ (p, listed) ∈ entries := by
  induction entries with
  | nil => simp
  | cons entry rest ih =>
      obtain ⟨name, others⟩ := entry
      rw [List.map_cons, List.nodup_cons] at distinct
      obtain ⟨hnot, hrest⟩ := distinct
      rw [List.lookup_cons, List.mem_cons, Prod.mk.injEq]
      by_cases hname : p = name
      · subst hname
        rw [beq_self_eq_true]
        constructor
        · intro h
          exact Or.inl ⟨rfl, (Option.some.inj h).symm⟩
        · rintro (⟨-, h⟩ | h)
          · rw [h]
          · exact absurd (List.mem_map_of_mem h) hnot
      · rw [beq_eq_false_iff_ne.2 hname]
        constructor
        · intro h
          exact Or.inr ((ih hrest).1 h)
        · rintro (⟨h, -⟩ | h)
          · exact absurd h hname
          · exact (ih hrest).2 h

theorem mem_dependencies : d ∈ catalog.dependencies p ↔ catalog.DependsOn p d := by
  rw [dependencies, List.mem_filter, contains, List.contains_iff_mem, DependsOn]
  refine and_congr_left fun _ => ?_
  cases hlookup : catalog.entries.lookup p with
  | none =>
      rw [Option.getD_none]
      constructor
      · intro h
        exact absurd h List.not_mem_nil
      · rintro ⟨listed, hentry, -⟩
        rw [(lookup_eq_some_iff catalog.distinct).2 hentry] at hlookup
        cases hlookup
  | some listed =>
      have hentry := (lookup_eq_some_iff catalog.distinct).1 hlookup
      constructor
      · intro h
        exact ⟨listed, hentry, h⟩
      · rintro ⟨other, hother, hd⟩
        have hsame := (lookup_eq_some_iff catalog.distinct).2 hother
        rw [hlookup, Option.some.injEq] at hsame
        rw [hsame]
        exact hd

theorem DependsOn.installed (h : catalog.DependsOn p d) : d ∈ catalog.names := h.2

theorem Needed.installed (h : catalog.Needed names p) : p ∈ catalog.names := by
  cases h with
  | asked _ installed => exact installed
  | dependency _ depends => exact depends.installed

/-! ## Gathering -/

/-- What holds while plugins are gathered: all installed plugins are unseen or found, what is
found or pending is needed, and what is found depends only on what is found or pending. -/
structure Gathering (catalog : Catalog) (names unseen pending found : List String) : Prop where
  known : ∀ x, x ∈ catalog.names ↔ x ∈ unseen ∨ x ∈ found
  apart : ∀ x ∈ found, x ∉ unseen
  unseen_nodup : unseen.Nodup
  found_nodup : found.Nodup
  needed : ∀ x ∈ found, catalog.Needed names x
  awaited : ∀ x ∈ pending, x ∈ catalog.names → catalog.Needed names x
  asked : ∀ x ∈ names, x ∈ catalog.names → x ∈ found ∨ x ∈ pending
  closed : ∀ x ∈ found, ∀ y, catalog.DependsOn x y → y ∈ found ∨ y ∈ pending

theorem gathering_start (catalog : Catalog) (names : List String) :
    Gathering catalog names catalog.names names [] where
  known x := by simp
  apart x hx := absurd hx List.not_mem_nil
  unseen_nodup := catalog.distinct
  found_nodup := List.nodup_nil
  needed x hx := absurd hx List.not_mem_nil
  awaited x hx installed := .asked hx installed
  asked x hx _ := Or.inr hx
  closed x hx := absurd hx List.not_mem_nil

namespace Gathering

variable {unseen rest found : List String} {name : String}

/-- A name that is installed and not found yet. -/
theorem find (h : Gathering catalog names unseen (name :: rest) found) (hname : name ∈ unseen) :
    Gathering catalog names (unseen.erase name) (rest ++ catalog.dependencies name)
      (name :: found) := by
  have hinstalled : name ∈ catalog.names := (h.known name).2 (Or.inl hname)
  have hneeded : catalog.Needed names name := h.awaited name List.mem_cons_self hinstalled
  have hmem : ∀ x, x ∈ unseen.erase name ↔ x ≠ name ∧ x ∈ unseen := fun x =>
    h.unseen_nodup.mem_erase_iff
  -- What was pending is found now or still pending.
  have hmoved : ∀ x, x ∈ found ∨ x ∈ name :: rest →
      x ∈ name :: found ∨ x ∈ rest ++ catalog.dependencies name := by
    rintro x (hx | hx)
    · exact Or.inl (List.mem_cons_of_mem _ hx)
    · rcases List.mem_cons.1 hx with rfl | hx
      · exact Or.inl List.mem_cons_self
      · exact Or.inr (List.mem_append_left _ hx)
  constructor
  case known =>
    intro x
    rw [h.known x, hmem, List.mem_cons]
    by_cases hx : x = name
    · subst hx
      simp [hname]
    · simp [hx]
  case apart =>
    intro x hx
    rw [hmem]
    rcases List.mem_cons.1 hx with rfl | hx
    · exact fun h => h.1 rfl
    · exact fun hunseen => h.apart x hx hunseen.2
  case unseen_nodup => exact h.unseen_nodup.erase name
  case found_nodup => exact List.nodup_cons.2 ⟨fun hx => h.apart name hx hname, h.found_nodup⟩
  case needed =>
    intro x hx
    rcases List.mem_cons.1 hx with rfl | hx
    · exact hneeded
    · exact h.needed x hx
  case awaited =>
    intro x hx installed
    rcases List.mem_append.1 hx with hx | hx
    · exact h.awaited x (List.mem_cons_of_mem _ hx) installed
    · exact .dependency hneeded (mem_dependencies.1 hx)
  case asked => exact fun x hx installed => hmoved x (h.asked x hx installed)
  case closed =>
    intro x hx y depends
    rcases List.mem_cons.1 hx with rfl | hx
    · exact Or.inr (List.mem_append_right _ (mem_dependencies.2 depends))
    · exact hmoved y (h.closed x hx y depends)

/-- A name that is not installed or was found before. -/
theorem skip (h : Gathering catalog names unseen (name :: rest) found) (hname : name ∉ unseen) :
    Gathering catalog names unseen rest found := by
  -- If the name is installed, it was found before.
  have hmoved : ∀ x, x ∈ catalog.names → x ∈ found ∨ x ∈ name :: rest → x ∈ found ∨ x ∈ rest := by
    rintro x installed (hx | hx)
    · exact Or.inl hx
    · rcases List.mem_cons.1 hx with rfl | hx
      · exact Or.inl (((h.known x).1 installed).resolve_left hname)
      · exact Or.inr hx
  exact {
    known := h.known
    apart := h.apart
    unseen_nodup := h.unseen_nodup
    found_nodup := h.found_nodup
    needed := h.needed
    awaited := fun x hx => h.awaited x (List.mem_cons_of_mem _ hx)
    asked := fun x hx installed => hmoved x installed (h.asked x hx installed)
    closed := fun x hx y depends => hmoved y depends.installed (h.closed x hx y depends) }

/-- When nothing is pending any more, exactly the needed plugins are found. -/
theorem mem_found (h : Gathering catalog names unseen [] found) :
    p ∈ found ↔ catalog.Needed names p := by
  constructor
  · exact h.needed p
  · intro hp
    induction hp with
    | asked named installed => exact (h.asked _ named installed).resolve_right List.not_mem_nil
    | dependency _ depends ih => exact (h.closed _ ih _ depends).resolve_right List.not_mem_nil

end Gathering

theorem Gathering.gather {unseen pending found : List String}
    (h : Gathering catalog names unseen pending found) :
    ∃ unseen', Gathering catalog names unseen' []
      (gather catalog.dependencies unseen pending found) := by
  fun_induction Catalog.gather catalog.dependencies unseen pending found with
  | case1 unseen found => exact ⟨unseen, h⟩
  | case2 unseen found name rest hname ih => exact ih (h.find hname)
  | case3 unseen found name rest hname ih => exact ih (h.skip hname)

/-! ## The closure -/

/-- The closure has exactly the needed plugins. -/
theorem mem_closure : p ∈ catalog.closure names ↔ catalog.Needed names p := by
  obtain ⟨unseen, h⟩ := (gathering_start catalog names).gather
  rw [closure, inOrder, Ordered.mem_sort, h.mem_found]

/-- The closure has no plugin twice. -/
theorem closure_nodup (catalog : Catalog) (names : List String) :
    (catalog.closure names).Nodup := by
  obtain ⟨unseen, h⟩ := (gathering_start catalog names).gather
  exact (Ordered.sort_perm _ _).nodup_iff.2 h.found_nodup

/-- The closure is in the order of the names. -/
theorem closure_pairwise (catalog : Catalog) (names : List String) :
    (catalog.closure names).Pairwise (· ≤ ·) := by
  have h : (catalog.closure names).Pairwise fun a b => decide (a ≤ b) = true :=
    Ordered.sort_pairwise (fun a b => by simpa using Std.le_total)
      (fun a b c => by simpa using Std.le_trans) _
  exact h.imp fun hab => of_decide_eq_true hab

/-- What is needed decides the closure. -/
theorem closure_congr {other : Catalog} {others : List String}
    (h : ∀ p, catalog.Needed names p ↔ other.Needed others p) :
    catalog.closure names = other.closure others := by
  have hperm : (catalog.closure names).Perm (other.closure others) := by
    refine (List.perm_ext_iff_of_nodup (closure_nodup _ _) (closure_nodup _ _)).2 fun p => ?_
    rw [mem_closure, mem_closure, h p]
  exact hperm.eq_of_pairwise (fun a b _ _ hab hba => Std.le_antisymm hab hba)
    (closure_pairwise _ _) (closure_pairwise _ _)

end SettingStore.Catalog
