import SettingStore.Text.Blank

set_option autoImplicit false

/-! # The catalog of plugins

A catalog holds the installed plugins, each with the names of the plugins it depends on.
A plugin that is added again gets the new dependencies. A dependency need not be installed.
-/

namespace SettingStore

/-- The installed plugins with the dependencies of each; no name occurs twice. -/
structure Catalog where
  entries : List (String × List String)
  distinct : (entries.map (·.1)).Nodup

namespace Catalog

/-- No plugin is installed. -/
def empty : Catalog := ⟨[], List.nodup_nil⟩

/-- Install a plugin, in the place of one with that name. -/
def add (catalog : Catalog) (name : String) (dependencies : List String) : Catalog where
  entries := (name, dependencies) :: catalog.entries.filter (·.1 != name)
  distinct := by
    refine List.nodup_cons.2 ⟨?_, ?_⟩
    · intro h
      obtain ⟨entry, hentry, hname⟩ := List.mem_map.1 h
      simp [hname] at hentry
    · exact catalog.distinct.sublist ((List.filter_sublist).map _)

/-- Install plugins one after another. -/
def ofList (plugins : List (String × List String)) : Catalog :=
  plugins.foldl (fun catalog plugin => catalog.add plugin.1 plugin.2) empty

/-- The names of the installed plugins. -/
def names (catalog : Catalog) : List String := catalog.entries.map (·.1)

/-- The number of installed plugins. -/
def size (catalog : Catalog) : Nat := catalog.entries.length

/-- The plugin is installed. -/
def contains (catalog : Catalog) (name : String) : Bool := catalog.names.contains name

/-- The dependencies of a plugin that are themselves installed, as they were listed. -/
def dependencies (catalog : Catalog) (name : String) : List String :=
  ((catalog.entries.lookup name).getD []).filter catalog.contains

/-- The plugin that an argument of the form `name=dep,dep,…` describes: blanks around names and
empty dependencies do not count, and the name must not be blank. -/
def entry? (argument : String) : Option (String × List String) :=
  let name := Text.trimChars (argument.toList.takeWhile (· != '='))
  let listed := (argument.toList.dropWhile (· != '=')).drop 1
  -- Further equals signs belong to the dependencies.
  if name.isEmpty then none
  else
    let dependencies := ((Text.segments (· == ',') listed).map Text.trimChars).filter (!·.isEmpty)
    some (String.ofList name, dependencies.map String.ofList)

/-- The message for an argument that describes no plugin. -/
def missingName (argument : String) : String := "missing plugin name in '" ++ argument ++ "'"

end Catalog

end SettingStore
