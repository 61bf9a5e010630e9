/-
Listing the methods of declaration files.
-/
import UseCases.Project.Generate
import UseCases.Report.Listing

namespace UseCases.Project

open Declaration Files Report

variable {m : Type → Type} [Monad m] [Host m]

/-- What is found in a declaration file. -/
def listFile (path : Path) : m (Except Failure ListedDeclaration) := do
  match ← readText path with
  | .error e => return .error (.read path e)
  | .ok source =>
    let extraction := extract source
    logAll extraction.log
    return .ok
      { path
        repository := repositoryName? source
        methods := extraction.methods
        notes := extraction.diagnostics.map fun d => (d.severity, describe path d) }

/-- What is found in some declaration files. -/
def listAll : List Path → m (Except Failure (List ListedDeclaration))
  | [] => return .ok []
  | path :: paths => do
    match ← listFile path with
    | .error failure => return .error failure
    | .ok listed =>
      match ← listAll paths with
      | .error failure => return .error failure
      | .ok more => return .ok (listed :: more)

/-- The listing of some declaration files, or the first failure to read one. -/
def list (paths : List Path) : m (Except Failure Listing) := do
  match ← listAll paths with
  | .error failure => return .error failure
  | .ok declarations => return .ok ⟨declarations⟩

end UseCases.Project
