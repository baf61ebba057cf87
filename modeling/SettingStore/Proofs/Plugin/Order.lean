import SettingStore.Proofs.Plugin.Reachability
import SettingStore.Proofs.Plugin.Walk

set_option autoImplicit false

/-! # The order of the plugins

If plugins are resolved, the outcome has exactly the needed ones, each once and after all that
it depends on (`resolve_puts_dependencies_first`). They cannot be resolved exactly if one of
them depends on itself, in one or more steps, and the error names such a plugin
(`resolve_fails_on_cycles_only`). What was resolved is resolved to itself
(`resolve_of_resolve`).
-/

namespace SettingStore.Catalog

variable {catalog : Catalog} {names sorted before after : List String} {p d : String}

/-! ## Graphs -/

namespace Graph

variable {g : Graph} {a b name : String}

theorem mem_dependents : b ∈ g.dependents a ↔ (a, b) ∈ g.arrows := by
  simp [dependents]

theorem mem_dependencies : a ∈ g.dependencies b ↔ (a, b) ∈ g.arrows := by
  simp [dependencies]

/-- If the nodes can be put in order, each comes after all those with an arrow to it. -/
theorem of_order_eq_ok (nodup : g.nodes.Nodup) (h : g.order = .ok sorted) :
    sorted.Perm g.nodes ∧ ∀ before p after, sorted = before ++ p :: after →
      ∀ d, (d, p) ∈ g.arrows → d ∈ before := by
  rw [order] at h
  split at h
  · cases h
  · rename_i walked hwalk
    have finished := finished_of_walkAll nodup hwalk
    split at h
    · cases h
    · rename_i harrival
      cases h
      refine ⟨finished.perm, fun before p after hsplit d hd => ?_⟩
      have hplain : ∀ x ∈ sorted, x ∉ g.dependencies x := by
        intro x hx hself
        rw [mem_dependencies, ← mem_dependents] at hself
        exact finished.plain x (finished.perm.mem_iff.1 hx) hself
      have hbefore := arrival?_eq_none (finished.perm.nodup_iff.2 nodup)
        (fun x _ => List.not_mem_nil) hplain harrival hsplit d (mem_dependencies.2 hd)
      exact hbefore.resolve_right List.not_mem_nil

/-- If the nodes cannot be put in order, the node that is named leads to itself. -/
theorem of_order_eq_error (nodup : g.nodes.Nodup) (within : ∀ arrow ∈ g.arrows, arrow.1 ∈ g.nodes)
    (h : g.order = .error name) : name ∈ g.nodes ∧ Leads g.dependents name name := by
  rw [order] at h
  split at h
  · rename_i found hwalk
    cases h
    obtain ⟨hnode, hself⟩ := (walking_start g.dependents nodup).self_of_walkAll hwalk
    exact ⟨hnode, Relation.TransGen.single hself⟩
  · rename_i walked hwalk
    have finished := finished_of_walkAll nodup hwalk
    split at h
    · rename_i found harrival
      cases h
      obtain ⟨before, p, after, hsplit, hnext, hne, hbefore, -⟩ :=
        arrival?_eq_some (finished.perm.nodup_iff.2 nodup) (fun x _ => List.not_mem_nil) harrival
      rw [mem_dependencies] at hnext
      have hnode : name ∈ g.nodes := within _ hnext
      -- The node comes after `p` although it has an arrow to it, so `p` leads to the node.
      have hafter : name ∈ after := by
        have hmem := finished.perm.mem_iff.2 hnode
        rw [hsplit, List.mem_append, List.mem_cons] at hmem
        exact (hmem.resolve_left hbefore).resolve_left hne
      have hordered := finished.ordered
      rw [hsplit, List.pairwise_append, List.pairwise_cons] at hordered
      have hback := hordered.2.1.1 name hafter (mem_dependents.2 hnext)
      exact ⟨hnode, hback.head (mem_dependents.2 hnext)⟩
    · cases h

end Graph

/-! ## The graph of the needed plugins -/

theorem mem_arrows {nodes : List String} :
    (d, p) ∈ (catalog.graph nodes).arrows ↔ p ∈ nodes ∧ d ∈ nodes ∧ catalog.DependsOn p d := by
  simp only [graph, List.mem_flatMap, List.mem_map, List.mem_filter, Prod.mk.injEq,
    List.contains_iff_mem, mem_dependencies]
  constructor
  · rintro ⟨x, hx, y, ⟨hdepends, hy⟩, rfl, rfl⟩
    exact ⟨hx, hy, hdepends⟩
  · rintro ⟨hp, hd, hdepends⟩
    exact ⟨p, hp, d, ⟨hdepends, hd⟩, rfl, rfl⟩

/-- The dependencies of needed plugins are needed, so none of them is missing in the graph. -/
theorem mem_arrows_closure :
    (d, p) ∈ (catalog.graph (catalog.closure names)).arrows ↔
      catalog.Needed names p ∧ catalog.DependsOn p d := by
  rw [mem_arrows, mem_closure, mem_closure]
  constructor
  · rintro ⟨hp, -, hdepends⟩
    exact ⟨hp, hdepends⟩
  · rintro ⟨hp, hdepends⟩
    exact ⟨hp, .dependency hp hdepends, hdepends⟩

/-! ## Resolving -/

theorem order_of_resolve (h : catalog.resolve names = .ok sorted) :
    (catalog.graph (catalog.closure names)).order = .ok sorted := by
  rw [resolve] at h
  split at h
  · rename_i found horder
    cases h
    exact horder
  · cases h

theorem order_of_resolve_error {e : Error} (h : catalog.resolve names = .error e) :
    ∃ name, e = .invalidValue ("Plugin dependency cycle involving " ++ name ++ ".") ∧
      (catalog.graph (catalog.closure names)).order = .error name := by
  rw [resolve] at h
  split at h
  · cases h
  · rename_i name horder
    cases h
    exact ⟨name, rfl, horder⟩

/-- What is resolved are the plugins of the closure. -/
theorem perm_closure_of_resolve (h : catalog.resolve names = .ok sorted) :
    sorted.Perm (catalog.closure names) :=
  (Graph.of_order_eq_ok (closure_nodup catalog names) (order_of_resolve h)).1

theorem nodup_of_resolve (h : catalog.resolve names = .ok sorted) : sorted.Nodup :=
  (perm_closure_of_resolve h).nodup_iff.2 (closure_nodup catalog names)

theorem mem_of_resolve (h : catalog.resolve names = .ok sorted) :
    p ∈ sorted ↔ catalog.Needed names p :=
  (perm_closure_of_resolve h).mem_iff.trans mem_closure

/-- Every dependency comes before the plugin that lists it. -/
theorem mem_before_of_resolve (h : catalog.resolve names = .ok sorted)
    (hsplit : sorted = before ++ p :: after) (hdepends : catalog.DependsOn p d) : d ∈ before := by
  have hp : p ∈ sorted := by
    rw [hsplit]
    exact List.mem_append_right _ List.mem_cons_self
  have hbefore := (Graph.of_order_eq_ok (closure_nodup catalog names) (order_of_resolve h)).2
  exact hbefore before p after hsplit d (mem_arrows_closure.2 ⟨(mem_of_resolve h).1 hp, hdepends⟩)

/-- The same is true of what a plugin depends on through others. -/
theorem mem_before_of_transGen (h : catalog.resolve names = .ok sorted)
    (hsplit : sorted = before ++ p :: after)
    (hdepends : Relation.TransGen catalog.DependsOn p d) : d ∈ before := by
  induction hdepends with
  | single hd => exact mem_before_of_resolve h hsplit hd
  | @tail middle _ _ hd ih =>
      -- The list is cut once more, at the plugin in between.
      obtain ⟨front, back, hfront⟩ := List.append_of_mem ih
      have hsplit' : sorted = front ++ middle :: (back ++ p :: after) := by
        rw [hsplit, hfront, List.append_assoc, List.cons_append]
      rw [hfront]
      exact List.mem_append_left _ (mem_before_of_resolve h hsplit' hd)

/-- So none of the plugins depends on itself. -/
theorem not_onCycle_of_resolve (h : catalog.resolve names = .ok sorted) (hp : p ∈ sorted) :
    ¬ catalog.OnCycle p := by
  intro hcycle
  obtain ⟨before, after, hsplit⟩ := List.append_of_mem hp
  have hbefore : p ∈ before := mem_before_of_transGen h hsplit hcycle
  have hnodup := nodup_of_resolve h
  rw [hsplit, List.nodup_append] at hnodup
  exact hnodup.2.2 p hbefore p List.mem_cons_self rfl

/-- The plugin that an error names is needed, and it depends on itself. -/
theorem onCycle_of_order {name : String}
    (h : (catalog.graph (catalog.closure names)).order = .error name) :
    catalog.Needed names name ∧ catalog.OnCycle name := by
  have hwithin : ∀ arrow ∈ (catalog.graph (catalog.closure names)).arrows,
      arrow.1 ∈ (catalog.graph (catalog.closure names)).nodes := by
    rintro ⟨a, b⟩ harrow
    exact (mem_arrows.1 harrow).2.1
  obtain ⟨hnode, hleads⟩ := Graph.of_order_eq_error (closure_nodup catalog names) hwithin h
  refine ⟨mem_closure.1 hnode, ?_⟩
  -- The arrows go against the dependencies.
  have hdepends : ∀ a b, b ∈ (catalog.graph (catalog.closure names)).dependents a →
      Function.swap catalog.DependsOn a b :=
    fun a b hab => (mem_arrows.1 (Graph.mem_dependents.1 hab)).2.2
  exact Relation.transGen_swap.1 (Relation.TransGen.mono hdepends _ _ hleads)

/-- If plugins are resolved, then to exactly the needed ones, each once and after all installed
plugins that it lists. -/
theorem resolve_puts_dependencies_first (catalog : Catalog) (names : List String)
    {sorted : List String} (h : catalog.resolve names = .ok sorted) :
    sorted.Nodup ∧ (∀ p, p ∈ sorted ↔ catalog.Needed names p) ∧
      ∀ before p after, sorted = before ++ p :: after →
        ∀ d, catalog.DependsOn p d → d ∈ before :=
  ⟨nodup_of_resolve h, fun _ => mem_of_resolve h,
    fun _ _ _ hsplit _ hdepends => mem_before_of_resolve h hsplit hdepends⟩

/-- Thumbnails are made by workers, and both need jobs. -/
def thumbnailCatalog : Catalog where
  entries := [("jobs", []), ("worker", ["jobs"]), ("thumbnails", ["worker", "jobs"])]
  distinct := by decide

theorem resolve_thumbnails :
    thumbnailCatalog.resolve ["thumbnails", "missing"] = .ok ["jobs", "worker", "thumbnails"] := by
  have hnames : thumbnailCatalog.names = ["jobs", "worker", "thumbnails"] := rfl
  have hjobs : thumbnailCatalog.dependencies "jobs" = [] := by decide
  have hworker : thumbnailCatalog.dependencies "worker" = ["jobs"] := by decide
  have hthumbnails : thumbnailCatalog.dependencies "thumbnails" = ["worker", "jobs"] := by decide
  have hgather : gather thumbnailCatalog.dependencies thumbnailCatalog.names
      ["thumbnails", "missing"] [] = ["jobs", "worker", "thumbnails"] := by
    simp [gather, hnames, hjobs, hworker, hthumbnails]
  have hclosure : thumbnailCatalog.closure ["thumbnails", "missing"]
      = ["jobs", "thumbnails", "worker"] := by
    rw [closure, hgather]
    decide
  have hgraph : thumbnailCatalog.graph ["jobs", "thumbnails", "worker"]
      = ⟨["jobs", "thumbnails", "worker"],
        [("worker", "thumbnails"), ("jobs", "thumbnails"), ("jobs", "worker")]⟩ := by
    simp [graph, hjobs, hworker, hthumbnails]
  have horder : (thumbnailCatalog.graph ["jobs", "thumbnails", "worker"]).order
      = .ok ["jobs", "worker", "thumbnails"] := by
    rw [hgraph]
    simp [Graph.order, walkAll, walk, Graph.dependents, Graph.dependencies, arrival?, visit?]
  rw [resolve, hclosure, horder]

/-- What thumbnails depend on comes before them. -/
theorem resolve_puts_dependencies_first_of_thumbnails :
    thumbnailCatalog.resolve ["thumbnails", "missing"] = .ok ["jobs", "worker", "thumbnails"] ∧
      thumbnailCatalog.DependsOn "thumbnails" "worker" ∧
      ∀ d, thumbnailCatalog.DependsOn "thumbnails" d → d ∈ ["jobs", "worker"] := by
  obtain ⟨-, -, hbefore⟩ := resolve_puts_dependencies_first _ _ resolve_thumbnails
  exact ⟨resolve_thumbnails, mem_dependencies.1 (by decide),
    hbefore ["jobs", "worker"] "thumbnails" [] rfl⟩

/-- Plugins cannot be resolved exactly if a needed one depends on itself, directly or through
others. The error is about the value, and it names such a plugin. -/
theorem resolve_fails_on_cycles_only (catalog : Catalog) (names : List String) :
    ((∃ e, catalog.resolve names = .error e) ↔
      ∃ p, catalog.Needed names p ∧ catalog.OnCycle p) ∧
    ∀ e, catalog.resolve names = .error e → ∃ p,
      e = .invalid ⟨"value", "Plugin dependency cycle involving " ++ p ++ "."⟩ ∧
        catalog.Needed names p ∧ catalog.OnCycle p := by
  have herror : ∀ e, catalog.resolve names = .error e → ∃ p,
      e = .invalid ⟨"value", "Plugin dependency cycle involving " ++ p ++ "."⟩ ∧
        catalog.Needed names p ∧ catalog.OnCycle p := by
    intro e he
    obtain ⟨name, hname, horder⟩ := order_of_resolve_error he
    exact ⟨name, hname, onCycle_of_order horder⟩
  refine ⟨⟨fun ⟨e, he⟩ => ?_, fun ⟨p, hneeded, hcycle⟩ => ?_⟩, herror⟩
  · obtain ⟨p, -, hp⟩ := herror e he
    exact ⟨p, hp⟩
  · cases hresolve : catalog.resolve names with
    | error e => exact ⟨e, rfl⟩
    | ok sorted =>
        exact absurd hcycle (not_onCycle_of_resolve hresolve ((mem_of_resolve hresolve).2 hneeded))

/-- Two plugins that depend on each other, and one that depends on them. -/
def circle : Catalog where
  entries := [("a", ["b"]), ("b", ["a", "missing"]), ("c", ["a"])]
  distinct := by decide

theorem resolve_circle : circle.resolve ["c"]
    = .error (.invalidValue ("Plugin dependency cycle involving " ++ "b" ++ ".")) := by
  have hnames : circle.names = ["a", "b", "c"] := rfl
  have ha : circle.dependencies "a" = ["b"] := by decide
  have hb : circle.dependencies "b" = ["a"] := by decide
  have hc : circle.dependencies "c" = ["a"] := by decide
  have hgather : gather circle.dependencies circle.names ["c"] [] = ["b", "a", "c"] := by
    simp [gather, hnames, ha, hb, hc]
  have hclosure : circle.closure ["c"] = ["a", "b", "c"] := by
    rw [closure, hgather]
    decide
  have hgraph : circle.graph ["a", "b", "c"]
      = ⟨["a", "b", "c"], [("b", "a"), ("a", "b"), ("a", "c")]⟩ := by
    simp [graph, ha, hb, hc]
  have horder : (circle.graph ["a", "b", "c"]).order = .error "b" := by
    rw [hgraph]
    simp [Graph.order, walkAll, walk, Graph.dependents, Graph.dependencies, arrival?, visit?]
  rw [resolve, hclosure, horder]

/-- The plugin that the error names is one of the two. -/
theorem resolve_fails_on_cycles_only_of_circle :
    circle.resolve ["c"] = .error (.invalidValue "Plugin dependency cycle involving b.") ∧
      ∃ p, circle.Needed ["c"] p ∧ circle.OnCycle p :=
  ⟨resolve_circle, (resolve_fails_on_cycles_only circle ["c"]).1.1 ⟨_, resolve_circle⟩⟩

/-! ## Resolving again -/

/-- What was resolved needs nothing else. -/
theorem needed_of_resolve (h : catalog.resolve names = .ok sorted) :
    catalog.Needed sorted p ↔ catalog.Needed names p := by
  constructor
  · intro hp
    induction hp with
    | asked named _ => exact (mem_of_resolve h).1 named
    | dependency _ depends ih => exact .dependency ih depends
  · intro hp
    exact .asked ((mem_of_resolve h).2 hp) hp.installed

/-- What was resolved is resolved to itself, in the same order. -/
theorem resolve_of_resolve (h : catalog.resolve names = .ok sorted) :
    catalog.resolve sorted = .ok sorted := by
  rw [resolve, closure_congr fun p => needed_of_resolve h, order_of_resolve h]

end SettingStore.Catalog
