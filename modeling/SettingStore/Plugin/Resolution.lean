import SettingStore.Error
import SettingStore.Ordered
import SettingStore.Plugin.Catalog

set_option autoImplicit false

/-! # Resolution of plugin dependencies

Enabling plugins enables everything they depend on. `Catalog.resolve` answers the installed
plugins that can be reached from the given names, each one after its dependencies, or an
error that names a plugin on a cycle.

The plugins that can be reached become the nodes of a graph, in the order of their names, with
an arrow from each dependency to the plugin that lists it. A first walk goes depth first along
the arrows and leaves a plugin after all those that need it, so that the plugins left last come
first in the wanted order, if there is one. A second walk goes against the arrows, from one
plugin after another in that order, and tells whether it is one: each time it must not get
beyond the plugin from which it starts, since what comes before was seen already.
-/

namespace SettingStore.Catalog

/-! ## Gathering -/

/-- The names to be found from `pending` on: a name not seen before is found, and what it
depends on becomes pending. -/
def gather (dependencies : String → List String) (unseen pending found : List String) :
    List String :=
  match pending with
  | [] => found
  | name :: rest =>
      if name ∈ unseen then
        gather dependencies (unseen.erase name) (rest ++ dependencies name) (name :: found)
      else gather dependencies unseen rest found
termination_by (unseen.length, pending.length)
decreasing_by
  · rename_i h
    have := List.length_erase_of_mem h
    have := List.length_pos_of_mem h
    apply Prod.Lex.left
    omega
  · apply Prod.Lex.right
    simp

/-- Names in order. -/
def inOrder (names : List String) : List String :=
  Ordered.sort (fun a b => decide (a ≤ b)) names

/-- The installed plugins that can be reached from `names`, in the order of their names. -/
def closure (catalog : Catalog) (names : List String) : List String :=
  inOrder (gather catalog.dependencies catalog.names names [])

/-! ## The graph -/

/-- Plugins in order, and the arrows between them in the order in which they were added; an
arrow may occur more than once. -/
structure Graph where
  nodes : List String
  arrows : List (String × String)

/-- The graph of some plugins, with an arrow from a dependency wherever it is listed. -/
def graph (catalog : Catalog) (nodes : List String) : Graph where
  nodes
  arrows := nodes.flatMap fun name =>
    ((catalog.dependencies name).filter nodes.contains).map fun dependency => (dependency, name)

namespace Graph

/-- The ends of the arrows from a plugin, the one added last first. -/
def dependents (g : Graph) (name : String) : List String :=
  ((g.arrows.filter (·.1 == name)).map (·.2)).reverse

/-- The starts of the arrows to a plugin, the one added last first. -/
def dependencies (g : Graph) (name : String) : List String :=
  ((g.arrows.filter (·.2 == name)).map (·.1)).reverse

end Graph

/-! ## Walking along the arrows -/

/-- Walk on from the names on the stack. A name on top that is not seen yet stays where it is,
and the names next to it that are not seen either are put on top of it, one after another. When
it is on top again it is taken off, and it is left now unless it was left before. A name next
to itself ends the walk. The outcome tells which names are still unseen, and which were left,
the last one first. -/
def walk (next : String → List String) (unseen stack left : List String) :
    Except String (List String × List String) :=
  match stack with
  | [] => .ok (unseen, left)
  | name :: rest =>
      if name ∈ unseen then
        if name ∈ next name then .error name
        else
          walk next (unseen.erase name)
            (((next name).filter (unseen.erase name).contains).reverse ++ name :: rest) left
      else walk next unseen rest (if name ∈ left then left else name :: left)
termination_by (unseen.length, stack.length)
decreasing_by
  · rename_i h _
    have := List.length_erase_of_mem h
    have := List.length_pos_of_mem h
    apply Prod.Lex.left
    omega
  · apply Prod.Lex.right
    simp

/-- Walk from one name after another, unless it was seen before. -/
def walkAll (next : String → List String) (unseen left : List String) :
    List String → Except String (List String)
  | [] => .ok left
  | name :: rest =>
      if name ∈ unseen then
        match walk next unseen [name] left with
        | .error name => .error name
        | .ok (unseen, left) => walkAll next unseen left rest
      else walkAll next unseen left rest

/-! ## Walking against the arrows -/

/-- The first name on the stack that is not seen yet: it is seen from now on, and the names next
to it that are not are put on the stack. -/
def visit? (next : String → List String) (seen : List String) :
    List String → Option (String × List String × List String)
  | [] => none
  | name :: rest =>
      if name ∈ seen then visit? next seen rest
      else
        some (name, name :: seen, ((next name).filter (!(name :: seen).contains ·)).reverse ++ rest)

/-- Walk from one name after another, and tell the first name at which a walk arrives that did
not start there. -/
def arrival? (next : String → List String) (seen : List String) : List String → Option String
  | [] => none
  | name :: rest =>
      match visit? next seen [name] with
      | none => arrival? next seen rest
      | some (_, seen, stack) =>
          match visit? next seen stack with
          | some (other, _, _) => some other
          | none => arrival? next seen rest

/-! ## The order -/

/-- The nodes of a graph, each after those that have an arrow to it; otherwise a node on a
cycle. -/
def Graph.order (g : Graph) : Except String (List String) :=
  match walkAll g.dependents g.nodes [] g.nodes with
  | .error name => .error name
  | .ok sorted =>
      match arrival? g.dependencies [] sorted with
      | some name => .error name
      | none => .ok sorted

/-- The plugins to enable for the given names. -/
def resolve (catalog : Catalog) (names : List String) : Except Error (List String) :=
  match (catalog.graph (catalog.closure names)).order with
  | .ok sorted => .ok sorted
  | .error name =>
      .error (.invalidValue ("Plugin dependency cycle involving " ++ name ++ "."))

end SettingStore.Catalog
