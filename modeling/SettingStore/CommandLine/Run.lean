import SettingStore.CommandLine.Arguments
import SettingStore.Json.Text
import SettingStore.Service
import SettingStore.Store.Table.Basic

set_option autoImplicit false

/-! # Carrying out a command

A command is carried out over a table that is opened and repaired first. What it prints is
one line per value: JSON texts have no line breaks, and a listed value stands after its key
and a tab.
-/

namespace SettingStore

/-- The value of a text; a text that is no JSON text is a string. -/
def Json.ofTextOrString (s : String) : Json := (Json.ofText? s).getD (.string s)

namespace CommandLine

/-- What the core settings know about the deployment that a configuration describes. -/
def Configuration.deployment (c : Configuration) : Except Error Deployment :=
  match c.publicUrl with
  | none => .ok ⟨Catalog.ofList c.plugins, none⟩
  | some url => (Origin.ofText url).map fun origin => ⟨Catalog.ofList c.plugins, some origin⟩

/-- The registry of the core settings. -/
def Configuration.registry (c : Configuration) : Except Error FrozenRegistry :=
  match c.deployment with
  | .error e => .error e
  | .ok deployment =>
      match Registry.empty.registerCore deployment with
      | (.ok (), r) => .ok r.freeze
      | (.error e, _) => .error e

/-- A text and a line feed. -/
def line (s : String) : String := s ++ "\n"

/-- What a command prints. -/
def Command.session (service : Service) : Command → Session String
  | .repair => pure ""
  | .get key => do
      let v ← service.get key
      pure (line v.text)
  | .set key value => do
      let saved ← service.set key (.ofTextOrString value)
      pure (line saved.value.text)
  | .unset key => do
      Service.unset key
      pure ""
  | .list start => do
      let docs ← Service.list start
      pure (String.join (docs.map fun d => line (d.key ++ "\t" ++ d.value.text)))

/-- Set up the service, repair the store and carry out the command. -/
def Configuration.session (c : Configuration) : Session String := do
  let registry ← .ofExcept c.registry
  let service ← Service.connect registry
  c.command.session service

/-- What a run over a table prints, with the table after it. -/
def Configuration.run (c : Configuration) (t : Table) : Except Error String × Table :=
  c.session.run Table.backend Faults.none t.opened

end CommandLine

end SettingStore
