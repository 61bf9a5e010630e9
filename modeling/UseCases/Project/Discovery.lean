/-
Discovery: what a project's files tell about it.

Declaration files are found by their names, the package name in the pubspec, and the
repository class in the declaration; the use cases go beside the declaration.
-/
import UseCases.Declaration.Repository
import UseCases.Files.Host
import UseCases.Project.Failure
import UseCases.Project.Pubspec

namespace UseCases.Project

open Files

variable {m : Type → Type} [Monad m] [Host m]

/-! ### Declaration files -/

/-- What the name of a declaration file ends in. -/
def declarationSuffix : String := "_repository.dart"

/-- The last name on a path ends like that of a declaration file. -/
def isDeclaration (path : Path) : Bool :=
  match path.fileName? with
  | some name => Text.endsWith declarationSuffix.toList name.toList
  | none => false

/-- The declaration files that one path stands for: the file itself, or those below a
directory. -/
def declarationsAt (path : Path) : m (Except Failure (List Path)) := do
  match ← Host.kind? path with
  | none => return .error (.missing path)
  | some .file => return .ok [path]
  | some .directory =>
    match ← Host.walk path with
    | .error e => return .error (.walk path e)
    | .ok files =>
      let found := files.filter isDeclaration
      if found.isEmpty then
        Host.log ⟨.warn, "no *" ++ declarationSuffix ++ " files found under " ++ path⟩
      return .ok found

/-- The declaration files that some paths stand for, in the order of the paths. -/
def collectDeclarations : List Path → m (Except Failure (List Path))
  | [] => return .ok []
  | path :: paths => do
    match ← declarationsAt path with
    | .error failure => return .error failure
    | .ok found =>
      match ← collectDeclarations paths with
      | .error failure => return .error failure
      | .ok more => return .ok (found ++ more)

/-! ### Names -/

/-- The package name in a pubspec, if the file exists and gives one. -/
def pubspecName (path : Path) : m (Option String) := do
  match ← readText path with
  | .error e =>
    Host.log ⟨.debug, "cannot read " ++ path ++ ": " ++ e.message⟩
    return none
  | .ok text =>
    match pubspecName? text with
    | some name => return name
    | none =>
      Host.log ⟨.warn, "ignoring unparsable " ++ path ++ ": not the YAML of a pubspec"⟩
      return none

/-- The package name: the one that is given, else that of the pubspec, else the fallback. -/
def projectName (given : Option String) (pubspec : Path) (fallback : String) : m String := do
  match given with
  | some name => return name
  | none =>
    match ← pubspecName pubspec with
    | some name => return name
    | none =>
      Host.log ⟨.info, "no package name in " ++ pubspec ++ ", using '" ++ fallback ++ "'"⟩
      return fallback

/-- The repository class: the one that is given, else that of the declaration file. -/
def repositoryName (given : Option String) (source : String) (declaration : Path) :
    Except Failure String :=
  match given.or (Declaration.repositoryName? source) with
  | some name => .ok name
  | none => .error (.noRepository declaration)

/-! ### Output -/

/-- The directory of declaration files by convention. -/
def repositoriesDirectory : String := "repositories"

/-- The directory of use cases by convention. -/
def useCasesDirectory : String := "usecases"

/-- Where the use cases of a declaration go by default: into a directory beside the
`repositories` directory that holds it, or else beside the declaration itself. -/
def defaultOutput (declaration : Path) : Path :=
  let parent := declaration.parent?.getD ""
  match parent.fileName? == some repositoriesDirectory, parent.parent? with
  | true, some grandparent => grandparent.join useCasesDirectory
  | _, _ => parent.join useCasesDirectory

end UseCases.Project
