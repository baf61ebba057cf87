import Mathlib.Data.List.Basic
import Mathlib.Logic.Relation
import SettingStore.Proofs.Plugin.Order
import SettingStore.Proofs.Plugin.Repeats

set_option autoImplicit false

/-! # Demands that come to the same

A demand is a catalog and the names to enable in it. It can be put in other words: the names and
the lists of dependencies may be in another order and contain repeats and names that are not
installed, and there may be further plugins that are not needed (`Restated`). All this leaves the
needed plugins and their dependencies as they are (`NeedsSame`), and they alone decide what the
names are resolved to (`resolve_eq_ok_of_needsSame`). The main statement is
`resolve_of_restated`.
-/

namespace SettingStore.Catalog

variable {catalog other : Catalog} {names sorted : List String} {p d : String}

/-! ## The graph of the needed plugins -/

/-- A name has an arrow to each node that lists it, in the order of the nodes, and several of
them where it is listed more than once. -/
theorem repeats_arrows (listed : String → List String) (name : String) (nodes : List String) :
    Repeats (((nodes.flatMap fun p => (listed p).map fun d => (d, p)).filter (·.1 == name)).map
        (·.2))
      (nodes.filter fun p => decide (name ∈ listed p)) := by
  induction nodes with
  | nil => exact .nil
  | cons p rest ih =>
      have hblock : ∀ q ∈ (((listed p).map fun d => (d, p)).filter (·.1 == name)).map (·.2),
          q = p := by
        intro q hq
        obtain ⟨⟨d, p'⟩, harrow, rfl⟩ := List.mem_map.1 hq
        obtain ⟨d', -, heq⟩ := List.mem_map.1 (List.mem_filter.1 harrow).1
        exact (Prod.mk.inj heq).2.symm
      rw [List.flatMap_cons, List.filter_append, List.map_append]
      by_cases hp : name ∈ listed p
      · have hne : (((listed p).map fun d => (d, p)).filter (·.1 == name)).map (·.2) ≠ [] :=
          List.ne_nil_of_mem (a := p) (by simpa using hp)
        rw [List.filter_cons_of_pos (by simpa using hp)]
        exact Repeats.append_of_forall_eq hne hblock ih
      · have hnil : (((listed p).map fun d => (d, p)).filter (·.1 == name)).map (·.2) = [] := by
          simp only [List.map_eq_nil_iff, List.filter_eq_nil_iff, List.mem_map]
          rintro _ ⟨d, hd, rfl⟩ hname
          exact hp (beq_iff_eq.1 hname ▸ hd)
        rw [hnil, List.nil_append, List.filter_cons_of_neg (by simpa using hp)]
        exact ih

/-- The walk along the arrows sees which nodes list a name, and neither where nor how often. -/
theorem walkAll_graph (catalog : Catalog) (nodes : List String) :
    walkAll (catalog.graph nodes).dependents nodes [] nodes
      = walkAll (fun name => (nodes.filter fun p =>
          decide (name ∈ (catalog.dependencies p).filter nodes.contains)).reverse)
        nodes [] nodes := by
  refine walkAll_of_repeats (fun name => ?_) nodes
  rw [Graph.dependents, List.reverse_reverse, List.reverse_reverse]
  exact repeats_arrows (fun p => (catalog.dependencies p).filter nodes.contains) name nodes

/-- The order of the nodes is the one in which the walk along the arrows leaves them. -/
theorem Graph.walkAll_of_order {g : Graph} (h : g.order = .ok sorted) :
    walkAll g.dependents g.nodes [] g.nodes = .ok sorted := by
  rw [order] at h
  split at h
  · cases h
  · rename_i walked hwalk
    split at h
    · cases h
    · cases h
      exact hwalk

/-! ## Demands -/

/-- Names to enable, and the catalog of the plugins that are installed. -/
structure Demand where
  catalog : Catalog
  names : List String

/-- Two demands need the same plugins, and these depend on the same plugins. -/
structure NeedsSame (a b : Demand) : Prop where
  needed : ∀ p, a.catalog.Needed a.names p ↔ b.catalog.Needed b.names p
  depends : ∀ p d, a.catalog.Needed a.names p →
    (a.catalog.DependsOn p d ↔ b.catalog.DependsOn p d)

variable {a b c : Demand}

theorem NeedsSame.refl (a : Demand) : NeedsSame a a :=
  ⟨fun _ => Iff.rfl, fun _ _ _ => Iff.rfl⟩

theorem NeedsSame.symm (same : NeedsSame a b) : NeedsSame b a :=
  ⟨fun p => (same.needed p).symm, fun p d hp => (same.depends p d ((same.needed p).2 hp)).symm⟩

theorem NeedsSame.trans (first : NeedsSame a b) (second : NeedsSame b c) : NeedsSame a c :=
  ⟨fun p => (first.needed p).trans (second.needed p),
    fun p d hp => (first.depends p d hp).trans (second.depends p d ((first.needed p).1 hp))⟩

/-- A needed plugin is on a cycle in both catalogs or in none. -/
theorem NeedsSame.onCycle (same : NeedsSame a b) (hp : a.catalog.Needed a.names p)
    (hcycle : a.catalog.OnCycle p) : b.catalog.OnCycle p := by
  have hpath : ∀ {d}, Relation.TransGen a.catalog.DependsOn p d →
      a.catalog.Needed a.names d ∧ Relation.TransGen b.catalog.DependsOn p d := by
    intro d h
    induction h with
    | single hd => exact ⟨.dependency hp hd, .single ((same.depends _ _ hp).1 hd)⟩
    | tail _ hd ih =>
        obtain ⟨hmiddle, hleads⟩ := ih
        exact ⟨.dependency hmiddle hd, hleads.tail ((same.depends _ _ hmiddle).1 hd)⟩
  exact (hpath hcycle).2

theorem NeedsSame.closure_eq (same : NeedsSame a b) :
    a.catalog.closure a.names = b.catalog.closure b.names :=
  closure_congr same.needed

/-- In two graphs of the same needed plugins the walks along the arrows are the same. -/
theorem NeedsSame.walkAll_eq (same : NeedsSame a b) :
    walkAll (a.catalog.graph (a.catalog.closure a.names)).dependents
        (a.catalog.closure a.names) [] (a.catalog.closure a.names)
      = walkAll (b.catalog.graph (b.catalog.closure b.names)).dependents
        (b.catalog.closure b.names) [] (b.catalog.closure b.names) := by
  rw [walkAll_graph, walkAll_graph, ← same.closure_eq]
  refine congrArg (fun next => walkAll next _ [] _) (funext fun name => congrArg _ ?_)
  refine List.filter_congr fun p hp => decide_eq_decide.2 ?_
  rw [List.mem_filter, List.mem_filter, mem_dependencies, mem_dependencies,
    same.depends p name (mem_closure.1 hp)]

/-- What is needed, and what that depends on, decides the order. -/
theorem resolve_eq_ok_of_needsSame (same : NeedsSame a b)
    (h : a.catalog.resolve a.names = .ok sorted) : b.catalog.resolve b.names = .ok sorted := by
  have hwalk := Graph.walkAll_of_order (order_of_resolve h)
  cases hb : b.catalog.resolve b.names with
  | ok sorted' =>
      have hwalk' := Graph.walkAll_of_order (order_of_resolve hb)
      have hsame : (.ok sorted : Except String (List String)) = .ok sorted' := by
        calc (.ok sorted : Except String (List String))
            = _ := hwalk.symm
          _ = _ := same.walkAll_eq
          _ = .ok sorted' := hwalk'
      rw [Except.ok.inj hsame]
  | error e =>
      -- The plugin that the error names would be on a cycle in the first demand, too.
      obtain ⟨name, -, horder⟩ := order_of_resolve_error hb
      obtain ⟨hneeded, hcycle⟩ := onCycle_of_order horder
      have hname : name ∈ sorted := (mem_of_resolve h).2 ((same.needed name).2 hneeded)
      exact absurd (same.symm.onCycle hneeded hcycle) (not_onCycle_of_resolve h hname)

/-- If one demand cannot be met, then neither can the other, and both errors name a plugin that
depends on itself. -/
theorem resolve_eq_error_of_needsSame (same : NeedsSame a b) {e : Error}
    (h : a.catalog.resolve a.names = .error e) :
    ∃ p q, e = .invalid ⟨"value", "Plugin dependency cycle involving " ++ p ++ "."⟩ ∧
      b.catalog.resolve b.names
        = .error (.invalid ⟨"value", "Plugin dependency cycle involving " ++ q ++ "."⟩) ∧
      (a.catalog.OnCycle p ∧ b.catalog.OnCycle p) ∧ a.catalog.OnCycle q ∧ b.catalog.OnCycle q := by
  obtain ⟨p, rfl, horder⟩ := order_of_resolve_error h
  obtain ⟨hp, hcycle⟩ := onCycle_of_order horder
  cases hb : b.catalog.resolve b.names with
  | ok sorted =>
      have hok := resolve_eq_ok_of_needsSame same.symm hb
      rw [hok] at h
      cases h
  | error e' =>
      obtain ⟨q, rfl, horder'⟩ := order_of_resolve_error hb
      obtain ⟨hq, hcycle'⟩ := onCycle_of_order horder'
      exact ⟨p, q, rfl, rfl, ⟨hcycle, same.onCycle hp hcycle⟩, same.symm.onCycle hq hcycle',
        hcycle'⟩

/-- Where the dependencies are also listed alike, the graphs are the same. -/
theorem resolve_congr (same : NeedsSame a b) (listed : ∀ p, a.catalog.Needed a.names p →
      a.catalog.dependencies p = b.catalog.dependencies p) :
    a.catalog.resolve a.names = b.catalog.resolve b.names := by
  have hgraph : a.catalog.graph (a.catalog.closure a.names)
      = b.catalog.graph (b.catalog.closure b.names) := by
    rw [← same.closure_eq]
    simp only [graph, Graph.mk.injEq, true_and]
    refine List.flatMap_congr fun p hp => ?_
    rw [listed p (mem_closure.1 hp)]
  rw [resolve, resolve, hgraph]

/-! ## Other words for a demand -/

/-- Changes to a list that keep its known names: another order, a repeat, an unknown name. -/
inductive Relisted (known : List String) : List String → List String → Prop where
  | reordered {listed listed' : List String} (perm : listed.Perm listed') :
      Relisted known listed listed'
  | repeated {name : String} {listed : List String} (again : name ∈ listed) :
      Relisted known listed (name :: listed)
  | unknown {name : String} {listed : List String} (missing : name ∉ known) :
      Relisted known listed (name :: listed)

theorem Relisted.mem_iff {known listed listed' : List String} (h : Relisted known listed listed')
    {name : String} (hname : name ∈ known) : name ∈ listed ↔ name ∈ listed' := by
  cases h with
  | reordered perm => exact perm.mem_iff
  | repeated again =>
      rw [List.mem_cons]
      refine ⟨Or.inr, ?_⟩
      rintro (rfl | h)
      · exact again
      · exact h
  | unknown missing =>
      rw [List.mem_cons]
      refine ⟨Or.inr, ?_⟩
      rintro (rfl | h)
      · exact absurd hname missing
      · exact h

/-- A demand in other words: the names or the dependencies of one plugin are listed otherwise,
or a plugin is added that is not needed. The order of the entries of a catalog does not count. -/
inductive Restated : Demand → Demand → Prop where
  | names {catalog : Catalog} {asked asked' : List String}
      (change : Relisted catalog.names asked asked') :
      Restated ⟨catalog, asked⟩ ⟨catalog, asked'⟩
  | listing {catalog catalog' : Catalog} {asked listed listed' : List String} {plugin : String}
      {others : List (String × List String)}
      (before : catalog.entries.Perm ((plugin, listed) :: others))
      (after : catalog'.entries.Perm ((plugin, listed') :: others))
      (change : Relisted catalog.names listed listed') :
      Restated ⟨catalog, asked⟩ ⟨catalog', asked⟩
  | added {catalog catalog' : Catalog} {asked listed : List String} {plugin : String}
      (after : catalog'.entries.Perm ((plugin, listed) :: catalog.entries))
      (spare : ¬ catalog'.Needed asked plugin) :
      Restated ⟨catalog, asked⟩ ⟨catalog', asked⟩

/-- What one demand needs another one needs, if the other one has all that is asked and all
dependencies of what both need. -/
theorem needed_of_needed
    (asked : ∀ p ∈ a.names, p ∈ a.catalog.names → b.catalog.Needed b.names p)
    (depends : ∀ p d, a.catalog.Needed a.names p → a.catalog.DependsOn p d →
      b.catalog.DependsOn p d)
    (h : a.catalog.Needed a.names p) : b.catalog.Needed b.names p := by
  induction h with
  | asked named installed => exact asked _ named installed
  | dependency needed hd ih => exact .dependency ih (depends _ _ needed hd)

/-- The names may be listed otherwise. -/
theorem needsSame_of_names {asked asked' : List String}
    (same : ∀ p ∈ catalog.names, p ∈ asked ↔ p ∈ asked') :
    NeedsSame ⟨catalog, asked⟩ ⟨catalog, asked'⟩ := by
  refine ⟨fun p => ⟨?_, ?_⟩, fun _ _ _ => Iff.rfl⟩
  · exact needed_of_needed (a := ⟨catalog, asked⟩) (b := ⟨catalog, asked'⟩)
      (fun p hp known => .asked ((same p known).1 hp) known) fun _ _ _ hd => hd
  · exact needed_of_needed (a := ⟨catalog, asked'⟩) (b := ⟨catalog, asked⟩)
      (fun p hp known => .asked ((same p known).2 hp) known) fun _ _ _ hd => hd

/-- Another catalog may have the same plugins with the same dependencies. -/
theorem needsSame_of_dependsOn {asked : List String}
    (known : ∀ p, p ∈ catalog.names ↔ p ∈ other.names)
    (depends : ∀ p d, catalog.DependsOn p d ↔ other.DependsOn p d) :
    NeedsSame ⟨catalog, asked⟩ ⟨other, asked⟩ := by
  refine ⟨fun p => ⟨?_, ?_⟩, fun p d _ => depends p d⟩
  · exact needed_of_needed (a := ⟨catalog, asked⟩) (b := ⟨other, asked⟩)
      (fun p hp installed => .asked hp ((known p).1 installed)) fun p d _ hd => (depends p d).1 hd
  · exact needed_of_needed (a := ⟨other, asked⟩) (b := ⟨catalog, asked⟩)
      (fun p hp installed => .asked hp ((known p).2 installed)) fun p d _ hd => (depends p d).2 hd

/-- The dependencies of a plugin may be listed otherwise. -/
theorem needsSame_of_listing {asked listed listed' : List String} {plugin : String}
    {others : List (String × List String)}
    (before : catalog.entries.Perm ((plugin, listed) :: others))
    (after : other.entries.Perm ((plugin, listed') :: others))
    (same : ∀ d ∈ catalog.names, d ∈ listed ↔ d ∈ listed') :
    NeedsSame ⟨catalog, asked⟩ ⟨other, asked⟩ := by
  have hknown : ∀ p, p ∈ catalog.names ↔ p ∈ other.names := by
    intro p
    rw [Catalog.names, Catalog.names, (before.map _).mem_iff, (after.map _).mem_iff,
      List.map_cons, List.map_cons]
  refine needsSame_of_dependsOn hknown fun p d => ?_
  rw [DependsOn, DependsOn, ← hknown d]
  refine and_congr_left fun hd => ?_
  simp only [before.mem_iff, after.mem_iff, List.mem_cons, Prod.mk.injEq]
  constructor
  · rintro ⟨l, ⟨rfl, rfl⟩ | h, hmem⟩
    · exact ⟨listed', Or.inl ⟨rfl, rfl⟩, (same d hd).1 hmem⟩
    · exact ⟨l, Or.inr h, hmem⟩
  · rintro ⟨l, ⟨rfl, rfl⟩ | h, hmem⟩
    · exact ⟨listed, Or.inl ⟨rfl, rfl⟩, (same d hd).2 hmem⟩
    · exact ⟨l, Or.inr h, hmem⟩

/-- There may be one more plugin that is not needed. -/
theorem needsSame_of_added {asked listed : List String} {plugin : String}
    (after : other.entries.Perm ((plugin, listed) :: catalog.entries))
    (spare : ¬ other.Needed asked plugin) :
    NeedsSame ⟨catalog, asked⟩ ⟨other, asked⟩ := by
  have hknown : ∀ p, p ∈ other.names ↔ p = plugin ∨ p ∈ catalog.names := by
    intro p
    rw [Catalog.names, (after.map _).mem_iff, List.map_cons, List.mem_cons]
    exact Iff.rfl
  have hmore : ∀ p d, catalog.DependsOn p d → other.DependsOn p d := by
    rintro p d ⟨⟨l, hentry, hd⟩, installed⟩
    exact ⟨⟨l, after.mem_iff.2 (List.mem_cons_of_mem _ hentry), hd⟩,
      (hknown d).2 (Or.inr installed)⟩
  -- A needed plugin is another one, and so is what it depends on.
  have hless : ∀ p d, other.Needed asked p → other.DependsOn p d → catalog.DependsOn p d := by
    intro p d hp hdepends
    have hne : d ≠ plugin := fun he => spare (he ▸ .dependency hp hdepends)
    obtain ⟨⟨l, hentry, hd⟩, installed⟩ := hdepends
    refine ⟨⟨l, ?_, hd⟩, ((hknown d).1 installed).resolve_left hne⟩
    refine (List.mem_cons.1 (after.mem_iff.1 hentry)).resolve_left fun he => spare ?_
    obtain ⟨rfl, -⟩ := Prod.mk.inj he
    exact hp
  have hneeded : ∀ p, catalog.Needed asked p → other.Needed asked p := fun p =>
    needed_of_needed (a := ⟨catalog, asked⟩) (b := ⟨other, asked⟩)
      (fun p hp installed => .asked hp ((hknown p).2 (Or.inr installed))) fun p d _ => hmore p d
  refine ⟨fun p => ⟨hneeded p, ?_⟩, fun p d hp => ⟨hmore p d, hless p d (hneeded p hp)⟩⟩
  refine needed_of_needed (a := ⟨other, asked⟩) (b := ⟨catalog, asked⟩) ?_ hless
  intro p hp installed
  refine .asked hp (((hknown p).1 installed).resolve_left ?_)
  rintro rfl
  exact spare (.asked hp installed)

/-- Other words need the same plugins. -/
theorem Restated.needsSame (h : Restated a b) : NeedsSame a b := by
  cases h with
  | names change => exact needsSame_of_names fun _ => change.mem_iff
  | listing before after change => exact needsSame_of_listing before after fun _ => change.mem_iff
  | added after spare => exact needsSame_of_added after spare

/-- And so do any number of changes of words, there and back. -/
theorem needsSame_of_eqvGen (h : Relation.EqvGen Restated a b) : NeedsSame a b := by
  induction h with
  | rel a b change => exact change.needsSame
  | refl a => exact .refl a
  | symm a b _ ih => exact ih.symm
  | trans a b c _ _ first second => exact first.trans second

/-- A demand in other words is resolved to the same plugins in the same order, or it fails as
well. Then both errors are about the value and name plugins that depend on themselves, and they
are the same error unless some list of dependencies was changed. What was resolved is resolved
to itself. -/
theorem resolve_of_restated {demand other : Demand}
    (h : Relation.EqvGen Restated demand other) :
    (∀ sorted, demand.catalog.resolve demand.names = .ok sorted ↔
      other.catalog.resolve other.names = .ok sorted) ∧
    (∀ e, demand.catalog.resolve demand.names = .error e → ∃ p q,
      e = .invalid ⟨"value", "Plugin dependency cycle involving " ++ p ++ "."⟩ ∧
      other.catalog.resolve other.names
        = .error (.invalid ⟨"value", "Plugin dependency cycle involving " ++ q ++ "."⟩) ∧
      (demand.catalog.OnCycle p ∧ other.catalog.OnCycle p) ∧
      demand.catalog.OnCycle q ∧ other.catalog.OnCycle q) ∧
    ((∀ p, demand.catalog.Needed demand.names p →
        demand.catalog.dependencies p = other.catalog.dependencies p) →
      demand.catalog.resolve demand.names = other.catalog.resolve other.names) ∧
    ∀ sorted, demand.catalog.resolve demand.names = .ok sorted →
      demand.catalog.resolve sorted = .ok sorted := by
  have same := needsSame_of_eqvGen h
  refine ⟨fun sorted => ⟨?_, ?_⟩, ?_, ?_, ?_⟩
  · exact resolve_eq_ok_of_needsSame same
  · exact resolve_eq_ok_of_needsSame same.symm
  · exact fun e he => resolve_eq_error_of_needsSame same he
  · exact resolve_congr same
  · exact fun sorted hsorted => resolve_of_resolve hsorted

/-- The catalog of `thumbnailCatalog` with the dependencies of thumbnails in another order, and
with galleries that need thumbnails. -/
def galleryCatalog : Catalog where
  entries := [("gallery", ["thumbnails"]), ("thumbnails", ["jobs", "worker"]), ("jobs", []),
    ("worker", ["jobs"])]
  distinct := by decide

theorem not_needed_gallery : ¬ galleryCatalog.Needed ["thumbnails", "thumbnails"] "gallery" := by
  intro h
  generalize hname : "gallery" = name at h
  cases h with
  | asked named installed =>
      subst hname
      exact absurd named (by decide)
  | dependency needed depends =>
      obtain ⟨⟨listed, hentry, hd⟩, -⟩ := depends
      subst hname
      -- No plugin lists the galleries.
      have hnone : ∀ entry ∈ galleryCatalog.entries, "gallery" ∉ entry.2 := by decide
      exact hnone _ hentry hd

theorem restated_gallery : Relation.EqvGen Restated
    ⟨thumbnailCatalog, ["thumbnails", "missing"]⟩
    ⟨galleryCatalog, ["thumbnails", "thumbnails"]⟩ := by
  let swapped : Catalog :=
    ⟨[("thumbnails", ["jobs", "worker"]), ("jobs", []), ("worker", ["jobs"])], by decide⟩
  have hmissing : Restated ⟨thumbnailCatalog, ["thumbnails"]⟩
      ⟨thumbnailCatalog, ["missing", "thumbnails"]⟩ := .names (.unknown (by decide))
  have hasked : Restated ⟨thumbnailCatalog, ["missing", "thumbnails"]⟩
      ⟨thumbnailCatalog, ["thumbnails", "missing"]⟩ := .names (.reordered (by decide))
  have htwice : Restated ⟨thumbnailCatalog, ["thumbnails"]⟩
      ⟨thumbnailCatalog, ["thumbnails", "thumbnails"]⟩ := .names (.repeated (by decide))
  have hbefore : thumbnailCatalog.entries.Perm
      (("thumbnails", ["worker", "jobs"]) :: [("jobs", []), ("worker", ["jobs"])]) := by decide
  have hswapped : Restated ⟨thumbnailCatalog, ["thumbnails", "thumbnails"]⟩
      ⟨swapped, ["thumbnails", "thumbnails"]⟩ :=
    .listing hbefore (.refl _) (.reordered (by decide))
  have hadded : Restated ⟨swapped, ["thumbnails", "thumbnails"]⟩
      ⟨galleryCatalog, ["thumbnails", "thumbnails"]⟩ := .added (.refl _) not_needed_gallery
  have hnames := Relation.EqvGen.trans _ _ _ (.rel _ _ hmissing) (.rel _ _ hasked)
  exact .trans _ _ _ hnames.symm <| .trans _ _ _ (.rel _ _ htwice) <|
    .trans _ _ _ (.rel _ _ hswapped) (.rel _ _ hadded)

/-- Thumbnails are resolved in the order that they had before. -/
theorem resolve_of_restated_of_gallery :
    Relation.EqvGen Restated ⟨thumbnailCatalog, ["thumbnails", "missing"]⟩
      ⟨galleryCatalog, ["thumbnails", "thumbnails"]⟩ ∧
    galleryCatalog.resolve ["thumbnails", "thumbnails"] = .ok ["jobs", "worker", "thumbnails"] :=
  ⟨restated_gallery, ((resolve_of_restated restated_gallery).1 _).1 resolve_thumbnails⟩

/-- Which plugin of a cycle an error names hangs on the order in which dependencies are listed. -/
example :
    (Graph.mk ["a", "b", "c"] [("b", "a"), ("c", "a"), ("a", "b"), ("a", "c")]).order = .error "b" ∧
    (Graph.mk ["a", "b", "c"] [("c", "a"), ("b", "a"), ("a", "b"), ("a", "c")]).order
      = .error "c" := by
  constructor <;> simp [Graph.order, walkAll, walk, Graph.dependents, Graph.dependencies,
    arrival?, visit?]

end SettingStore.Catalog
