import SettingStore.Error

set_option autoImplicit false

/-! # The directory of a store

A store lives in the file `meta.db` of a directory. When it is opened, the directory is made
with all that is missing above it; a file in its place, or in the place of a directory above
it, is a fault of the file system. The file may be missing or empty; anything in its place
that is no database is a fault of the store.
-/

namespace SettingStore

/-- What a file holds. -/
inductive FileContent where
  | nothing
  | database
  | other
  deriving DecidableEq, Repr

/-- What is found at a path. -/
inductive PathEntry where
  | missing
  | file (content : FileContent)
  | directory
  deriving DecidableEq, Repr

/-- What is found at the directory of a store and above it, from the outermost directory on,
and at its file. -/
structure StoreSite where
  directories : List PathEntry
  database : PathEntry
  deriving DecidableEq, Repr

namespace StoreSite

/-- The entry is a file. -/
def isFile : PathEntry → Bool
  | .file _ => true
  | _ => false

/-- Make the directory and open the store in it. -/
def openStore (site : StoreSite) : Except Error Unit :=
  if site.directories.any isFile then .error (.fileSystem "not a directory")
  else
    match site.database with
    | .missing | .file .nothing | .file .database => .ok ()
    | .file .other | .directory => .error .database

end StoreSite

end SettingStore
