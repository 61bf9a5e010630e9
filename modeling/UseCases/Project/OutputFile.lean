/-
Files to be written.

A file that exists is left alone unless it is to be replaced, so edits made by hand survive.
The directories on the way to a file are made when they are missing.
-/
import UseCases.Files.Host
import UseCases.Project.Failure

namespace UseCases.Project

open Files

/-- What to do with a file that exists. -/
inductive Overwrite where
  | always
  | ifMissing
deriving Repr, DecidableEq

/-- A file to be written. -/
structure OutputFile where
  path : Path
  content : String
  overwrite : Overwrite
deriving Repr, DecidableEq

/-- What was done with a file. -/
inductive Written where
  | written
  | skipped
deriving Repr, DecidableEq

namespace OutputFile

variable {m : Type → Type} [Monad m] [Host m]

/-- Makes the directories on the way to the file. -/
def prepare (f : OutputFile) : m (Except Failure Unit) := do
  match f.path.parent? with
  | none => return .ok ()
  | some parent =>
    match ← makeDirectories parent with
    | .ok () => return .ok ()
    | .error e => return .error (.makeDirectory parent e)

/-- Writes the file and the directories on the way to it. -/
def store (f : OutputFile) : m (Except Failure Unit) := do
  match ← f.prepare with
  | .error failure => return .error failure
  | .ok () =>
    match ← Host.write f.path f.content.toUTF8 with
    | .ok () => return .ok ()
    | .error e => return .error (.write f.path e)

/-- The file exists and is to be left alone. -/
def isKept (f : OutputFile) : m Bool := do
  match f.overwrite with
  | .always => return false
  | .ifMissing => pathExists f.path

/-- Writes the file, unless it exists and is to be left alone. -/
def write (f : OutputFile) : m (Except Failure Written) := do
  if ← f.isKept then
    Host.log ⟨.debug, "skipping existing file " ++ f.path⟩
    return .ok .skipped
  match ← f.store with
  | .error failure => return .error failure
  | .ok () =>
    Host.log ⟨.info, "wrote " ++ f.path⟩
    return .ok .written

end OutputFile

end UseCases.Project
