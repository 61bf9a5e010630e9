/-
Generating use cases for declaration files.

Each declaration file is read, its methods are extracted, and the units of every method go
to the output directory. A file that fails is reported and the others are processed all the
same; units that were written before the failure stay.
-/
import UseCases.Declaration.Extraction
import UseCases.Generation.Unit
import UseCases.Project.Discovery
import UseCases.Project.OutputFile
import UseCases.Report.Generation

namespace UseCases.Project

open Declaration Files Generation Report

/-- How use cases are generated. -/
structure GenerateOptions where
  mode : Mode
  /-- The package that imports name. -/
  project : String
  /-- The repository class; else it is looked up in each file. -/
  repository : Option String
  /-- The file of the `Failure` type, inside `lib`. -/
  failurePath : String
  /-- The output directory; else it is derived for each file. -/
  output : Option Path
  /-- Nothing is written; the report shows what would be. -/
  dryRun : Bool
  /-- Files that exist are replaced. -/
  force : Bool
deriving Repr, DecidableEq

/-- A diagnostic with the file and the place that it is about. -/
def describe (path : Path) (d : Diagnostic) : String :=
  match d.location with
  | some location => path ++ " (" ++ location ++ "): " ++ d.message
  | none => path ++ ": " ++ d.message

namespace GenerateOptions

/-- The output directory of a declaration file. -/
def outputFor (o : GenerateOptions) (declaration : Path) : Path :=
  o.output.getD (defaultOutput declaration)

/-- Where a declaration file and the `Failure` type are imported from. -/
def contextFor (o : GenerateOptions) (declaration : Path) : ImportContext :=
  ⟨o.project, declaration, o.failurePath⟩

/-- What to do with files that exist. -/
def overwrite (o : GenerateOptions) : Overwrite :=
  if o.force then .always else .ifMissing

/-- The files of some methods of a declaration file. -/
def filesFor (o : GenerateOptions) (declaration : Path) (repository : String)
    (methods : List Method) : List OutputFile :=
  let context := o.contextFor declaration
  methods.flatMap fun method =>
    (units method method.name repository o.mode context).map fun unit =>
      ⟨(o.outputFor declaration).join unit.fileName, unit.content, o.overwrite⟩

end GenerateOptions

variable {m : Type → Type} [Monad m] [Host m]

/-- Writes a file, or previews it in a dry run. -/
def produce (dryRun : Bool) (file : OutputFile) : m (Except Failure UnitOutcome) := do
  if dryRun then return .ok ⟨file.path, .preview file.content⟩
  match ← file.write with
  | .error failure => return .error failure
  | .ok .written => return .ok ⟨file.path, .written⟩
  | .ok .skipped => return .ok ⟨file.path, .skipped⟩

/-- Writes or previews files one after the other, up to the first failure. -/
def produceAll (dryRun : Bool) : List OutputFile → m (Except Failure (List UnitOutcome))
  | [] => return .ok []
  | file :: files => do
    match ← produce dryRun file with
    | .error failure => return .error failure
    | .ok outcome =>
      match ← produceAll dryRun files with
      | .error failure => return .error failure
      | .ok outcomes => return .ok (outcome :: outcomes)

/-- Adds records to the log. -/
def logAll : List LogRecord → m Unit
  | [] => return ()
  | record :: records => do
    Host.log record
    logAll records

/-- Generates the use cases of a declaration whose source and repository class are known. -/
def generateFrom (o : GenerateOptions) (path : Path) (source repository : String) :
    m (Except Failure DeclarationReport) := do
  let extraction := extract source
  logAll extraction.log
  match ← produceAll o.dryRun (o.filesFor path repository extraction.methods) with
  | .error failure => return .error failure
  | .ok units =>
    return .ok
      { path
        repository
        methodCount := extraction.methods.length
        warnings := extraction.warnings.map (describe path)
        units }

/-- Generates the use cases of a declaration file. -/
def generateFile (o : GenerateOptions) (path : Path) : m (Except Failure DeclarationReport) := do
  match ← readText path with
  | .error e => return .error (.read path e)
  | .ok source =>
    match repositoryName o.repository source path with
    | .error failure => return .error failure
    | .ok repository => generateFrom o path source repository

/-- What became of some declaration files: the reports and the failures, each in order. -/
def generateAll (o : GenerateOptions) :
    List Path → m (List DeclarationReport × List FailedDeclaration)
  | [] => return ([], [])
  | path :: paths => do
    match ← generateFile o path with
    | .ok report =>
      let (reports, failures) ← generateAll o paths
      return (report :: reports, failures)
    | .error failure =>
      Host.log ⟨.warn, "skipping " ++ path ++ ": " ++ failure.message⟩
      let (reports, failures) ← generateAll o paths
      return (reports, ⟨path, failure.message⟩ :: failures)

/-- Generates the use cases of some declaration files. -/
def generate (o : GenerateOptions) (paths : List Path) : m GenerationReport := do
  let (declarations, failures) ← generateAll o paths
  return ⟨o.mode, o.project, o.dryRun, declarations, failures⟩

end UseCases.Project
