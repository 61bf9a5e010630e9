/-
Failures: what keeps the program from finishing its work, with all its causes.
-/
import UseCases.Files.OsError
import UseCases.Files.Path
import UseCases.Text.Search

namespace UseCases.Project

open Files

/-- What can go wrong with the files of a project. -/
inductive Failure where
  | read (path : Path) (cause : OsError)
  | makeDirectory (path : Path) (cause : OsError)
  | write (path : Path) (cause : OsError)
  | walk (path : Path) (cause : OsError)
  /-- There is neither a file nor a directory. -/
  | missing (path : Path)
  /-- A declaration file declares no repository class. -/
  | noRepository (path : Path)
  /-- Some of the declaration files of a run failed. -/
  | incomplete (failed total : Nat)
deriving Repr, DecidableEq

namespace Failure

/-- A path in quotes. -/
def quoted (path : Path) : String :=
  "'" ++ path ++ "'"

/-- The failure in words, followed by its causes. -/
def causes : Failure → List String
  | .read path cause => ["failed to read " ++ quoted path, cause.message]
  | .makeDirectory path cause => ["failed to create " ++ quoted path, cause.message]
  | .write path cause => ["failed to write " ++ quoted path, cause.message]
  | .walk path cause => ["failed to walk " ++ quoted path, cause.message]
  | .missing path => [quoted path ++ " does not exist"]
  | .noRepository path =>
    ["no `class <Name>Repository` found in " ++ quoted path ++ "; pass --repository <Name>"]
  | .incomplete failed total =>
    ["Failed to generate use cases for " ++ toString failed ++ " of " ++ toString total ++ " files"]

/-- The failure and its causes on one line. -/
def message (f : Failure) : String :=
  Text.join ": " f.causes

end Failure

end UseCases.Project
