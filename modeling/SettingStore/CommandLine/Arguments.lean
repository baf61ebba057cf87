import SettingStore.Plugin.Catalog

set_option autoImplicit false

/-! # Command line arguments

The arguments are options, then a command, then the values of the command. An option takes
its value after an equals sign or from the next argument; the value of the next argument is
looked at only when the following option is, so that what is wrong with the command is
noticed first. After `--` nothing is an option any more.
-/

namespace SettingStore.CommandLine

/-- What is to be done with the settings. -/
inductive Command where
  | repair
  | get (key : String)
  | set (key : String) (value : String)
  | unset (key : String)
  | list (start : Option String)
  deriving DecidableEq, Repr

/-- The result of reading the arguments. -/
structure Configuration where
  directory : String
  publicUrl : Option String
  plugins : List (String × List String)
  command : Command
  deriving DecidableEq, Repr

/-- Why no command is carried out. -/
inductive Refusal where
  | help
  | version
  | nothingGiven
  | unknownArgument
  | unknownCommand
  | missingCommand
  | missingValue
  | unusableValue
  | needlessValue
  | repeatedOption
  | invalidPlugin
  deriving DecidableEq, Repr

/-! ## Options -/

/-- The options that take a value, by name. -/
inductive Flag where
  | directory
  | publicUrl
  | plugin
  deriving DecidableEq, Repr

/-- The option with a name. -/
def Flag.ofName? (name : String) : Option Flag :=
  if name = "db-dir" then some .directory
  else if name = "public-url" then some .publicUrl
  else if name = "plugin" then some .plugin
  else none

/-- The options read so far. -/
structure Options where
  directory : Option String
  publicUrl : Option String
  plugins : List (String × List String)
  deriving DecidableEq, Repr

namespace Options

/-- No option was given. -/
def empty : Options := ⟨none, none, []⟩

/-- The directory that holds when none is given. -/
def defaultDirectory : String := "./data"

/-- No option was given. -/
def isEmpty (o : Options) : Bool :=
  o.directory.isNone && o.publicUrl.isNone && o.plugins.isEmpty

/-- Add an option with its value. Only plugins may be given more than once, and the directory
must have a name. -/
def add (o : Options) (option : Flag) (value : Option String) : Except Refusal Options :=
  match value with
  | none => .error .unusableValue
  | some value =>
      match option with
      | .directory =>
          if o.directory.isSome then .error .repeatedOption
          else if value = "" then .error .unusableValue
          else .ok { o with directory := some value }
      | .publicUrl =>
          if o.publicUrl.isSome then .error .repeatedOption
          else .ok { o with publicUrl := some value }
      | .plugin =>
          match Catalog.entry? value with
          | some entry => .ok { o with plugins := o.plugins ++ [entry] }
          | none => .error .invalidPlugin

/-- Add an option that was read but not looked at yet, if there is one. -/
def settle (o : Options) : Option (Flag × Option String) → Except Refusal Options
  | none => .ok o
  | some (option, value) => o.add option value

end Options

/-! ## The shape of an argument -/

/-- An argument by its form. -/
inductive Shape where
  | separator
  | long (name : String) (value : Option String)
  | short (letter : Char)
  | plain
  deriving DecidableEq, Repr

/-- The form of an argument: a lone dash is plain. -/
def shape (argument : String) : Shape :=
  match argument.toList with
  | ['-', '-'] => .separator
  | '-' :: '-' :: body =>
      let name := String.ofList (body.takeWhile (· != '='))
      match body.dropWhile (· != '=') with
      | [] => .long name none
      | _ :: value => .long name (some (String.ofList value))
  | '-' :: letter :: _ => .short letter
  | _ => .plain

/-! ## Commands -/

/-- The names of the commands. -/
def commandNames : List String := ["repair", "get", "set", "unset", "list"]

/-- The names that may stand for a command. -/
def isCommandName (name : String) : Bool := name = "help" || commandNames.contains name

/-- The command with a name and its values, if their number is right: too many are unknown
arguments. -/
def command (name : String) (values : List String) : Except Refusal Command :=
  match name, values with
  | "repair", [] => .ok .repair
  | "get", [key] => .ok (.get key)
  | "get", [] => .error .missingValue
  | "set", [key, value] => .ok (.set key value)
  | "set", [] | "set", [_] => .error .missingValue
  | "unset", [key] => .ok (.unset key)
  | "unset", [] => .error .missingValue
  | "list", [] => .ok (.list none)
  | "list", [start] => .ok (.list (some start))
  | _, _ => .error .unknownArgument

/-- How many values a command takes at most. -/
def capacity (name : String) : Nat :=
  if name = "set" then 2 else if name = "repair" then 0 else 1

/-- Read what follows the name of a command; `values` were read before. -/
def readValues (name : String) (values : List String) (onlyValues : Bool) :
    List String → Except Refusal Command
  | [] => command name values
  | argument :: rest =>
      match if onlyValues then .plain else shape argument with
      | .separator => readValues name values true rest
      | .long option value =>
          if option = "help" then .error (if value.isSome then .needlessValue else .help)
          else .error .unknownArgument
      | .short letter => .error (if letter = 'h' then .help else .unknownArgument)
      | .plain =>
          if values.length = capacity name then .error .unknownArgument
          else readValues name (values ++ [argument]) onlyValues rest

/-- What a request for help answers: it may name one command. -/
def helpFor : List String → Refusal
  | [] => .help
  | [name] => if isCommandName name then .help else .unknownCommand
  | _ => .unknownCommand

/-! ## Reading the arguments -/

/-- There is no command. -/
def withoutCommand (o : Options) : Refusal :=
  if o.isEmpty then .nothingGiven else .missingCommand

/-- Read the arguments; `pending` is the last option, with its value once it is read. -/
def readArguments (o : Options) (pending : Option (Flag × Option String)) :
    List String → Except Refusal Configuration
  | [] => do
      let o ← o.settle pending
      .error (withoutCommand o)
  | argument :: rest =>
      let awaited := match pending with
        | some (option, none) => some option
        | _ => none
      match shape argument with
      | .separator =>
          match rest with
          | [] => do
              let o ← o.settle pending
              .error (withoutCommand o)
          | next :: _ =>
              -- There are no values before a command, so what follows can only be wrong.
              .error (if isCommandName next then .unknownArgument else .unknownCommand)
      | .long name value =>
          match Flag.ofName? name with
          | some option => do
              let o ← o.settle pending
              match value with
              | some value => do
                  let o ← o.add option (some value)
                  readArguments o none rest
              | none => readArguments o (some (option, none)) rest
          | none =>
              if name = "help" ∨ name = "version" then
                if value.isSome then .error .needlessValue
                else do
                  -- What is wrong with the option before counts first.
                  let _ ← o.settle pending
                  .error (if name = "help" then .help else .version)
              else .error .unknownArgument
      | .short letter =>
          if letter = 'h' ∨ letter = 'V' then do
            let _ ← o.settle pending
            .error (if letter = 'h' then .help else .version)
          else .error .unknownArgument
      | .plain =>
          match awaited with
          | some option => readArguments o (some (option, some argument)) rest
          | none =>
              if argument = "help" then .error (helpFor rest)
              else if commandNames.contains argument then do
                -- The last option is looked at after the whole command was read.
                let command ← readValues argument [] false rest
                let o ← o.settle pending
                .ok ⟨o.directory.getD Options.defaultDirectory, o.publicUrl, o.plugins, command⟩
              else .error .unknownCommand

/-- The configuration that the arguments ask for. -/
def Configuration.ofArguments (arguments : List String) : Except Refusal Configuration :=
  readArguments .empty none arguments

end SettingStore.CommandLine
