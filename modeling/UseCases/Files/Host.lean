/-
What the program needs of the place it runs in: file operations and a log.

The program is written against this interface. It runs on the file system of a machine and
on a world that is a value; the second is what its theory speaks about.
-/
import UseCases.Files.OsError
import UseCases.Files.Path
import UseCases.Log

namespace UseCases.Files

/-- What a path leads to, once links are followed. -/
inductive Kind where
  | file
  | directory
deriving Repr, DecidableEq

/-- The operations of a host. Every path may lead through links, and links at the end are
followed, except that no directory is made where a link stands. -/
class Host (m : Type → Type) where
  /-- The content of a file. -/
  read : Path → m (Except OsError ByteArray)
  /-- What there is at a path. -/
  kind? : Path → m (Option Kind)
  /-- Makes a directory in an existing one. -/
  makeDirectory : Path → m (Except OsError Unit)
  /-- Writes a file in an existing directory, in place of its content if it exists. -/
  write : Path → ByteArray → m (Except OsError Unit)
  /-- The paths of the regular files at any depth below a directory, in the order of a walk. -/
  walk : Path → m (Except OsError (List Path))
  /-- Adds a record to the log. -/
  log : LogRecord → m Unit

variable {m : Type → Type} [Monad m] [Host m]

/-- The content of a file that has to be text in UTF-8. -/
def readText (path : Path) : m (Except OsError String) := do
  match ← Host.read path with
  | .error e => return .error e
  | .ok bytes =>
    match String.fromUTF8? bytes with
    | some text => return .ok text
    | none => return .error .notText

/-- There is something at the path. -/
def pathExists (path : Path) : m Bool := do
  return (← Host.kind? path).isSome

/-- There is a directory at the path. -/
def isDirectory (path : Path) : m Bool := do
  return (← Host.kind? path) == some .directory

/-- Makes one directory, unless it is there. -/
def ensureDirectory (path : Path) : m (Except OsError Unit) := do
  match ← Host.makeDirectory path with
  | .ok () => return .ok ()
  | .error e => if ← isDirectory path then return .ok () else return .error e

/-- Makes a directory, given as its path followed by its ancestors. The ancestors are made
only if the directory cannot be made without them. -/
def makeLineage : List Path → m (Except OsError Unit)
  | [] => return .ok ()
  | path :: ancestors => do
    match ← Host.makeDirectory path with
    | .ok () => return .ok ()
    | .error .notFound =>
      match ← makeLineage ancestors with
      | .ok () => ensureDirectory path
      | .error e => return .error e
    | .error e => if ← isDirectory path then return .ok () else return .error e

/-- Makes a directory and whatever directories are missing on the way to it. -/
def makeDirectories (path : Path) : m (Except OsError Unit) :=
  makeLineage path.ancestors

end UseCases.Files
