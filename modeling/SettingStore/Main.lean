import SettingStore.CommandLine.Run
import SettingStore.Store.Table.Snapshot

set_option autoImplicit false

/-! # The program

Reads the arguments, loads the table from the file of the store, carries out the command and
writes the table back.
-/

namespace SettingStore.CommandLine

/-- How the program is called. -/
def usage : String :=
  "usage: settings [--db-dir DIR] [--public-url URL] [--plugin NAME=DEPS]... COMMAND\n" ++
  "commands: repair | get KEY | set KEY VALUE | unset KEY | list [PREFIX]"

/-- The file of a store. -/
def storeFile (directory : String) : String := directory ++ "/meta.db"

/-- Load the table of a directory, which is made if it is missing. -/
def load (directory : String) : IO (Except Error Table) := do
  try
    IO.FS.createDirAll directory
  catch e => return .error (.fileSystem (toString e))
  try
    let content ← IO.FS.readFile (storeFile directory)
    match Table.ofSnapshot? content with
    | some t => return .ok t
    | none => return .error .database
  catch
    | .noFileOrDirectory .. => return .ok Table.empty
    | _ => return .error .database

/-- Carry out a command. -/
def execute (c : Configuration) : IO UInt32 := do
  match ← load c.directory with
  | .error e =>
      IO.eprintln ("error: " ++ e.text)
      return 1
  | .ok t =>
      let (outcome, t) := c.run t
      IO.FS.writeFile (storeFile c.directory) t.snapshot
      match outcome with
      | .ok output =>
          IO.print output
          return 0
      | .error e =>
          IO.eprintln ("error: " ++ e.text)
          return 1

end SettingStore.CommandLine

open SettingStore.CommandLine in
/-- Without a command to carry out, the program shows how it is called. -/
def main (arguments : List String) : IO UInt32 := do
  match Configuration.ofArguments arguments with
  | .ok c => execute c
  | .error .help | .error .version =>
      IO.println usage
      return 0
  | .error _ =>
      IO.eprintln usage
      return 2
