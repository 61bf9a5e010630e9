/-
Generation reports: what became of each declaration file and of each generated file.
-/
import UseCases.Files.Path
import UseCases.Generation.Mode
import UseCases.Report.Event

namespace UseCases.Report

open Files Generation

/-- What was done with a generated file. -/
inductive UnitStatus where
  | written
  /-- It existed and was left alone. -/
  | skipped
  /-- It would be written with this content. -/
  | preview (content : String)
deriving Repr, DecidableEq

/-- A generated file. -/
structure UnitOutcome where
  path : Path
  status : UnitStatus
deriving Repr, DecidableEq

/-- What became of a declaration file. -/
structure DeclarationReport where
  path : Path
  /-- The class that the use cases wrap. -/
  repository : String
  methodCount : Nat
  /-- The warnings of its extraction, with their places. -/
  warnings : List String
  units : List UnitOutcome
deriving Repr, DecidableEq

/-- A declaration file that could not be processed. -/
structure FailedDeclaration where
  path : Path
  message : String
deriving Repr, DecidableEq

/-- The report of a run. Both lists are in the order in which the files were given. -/
structure GenerationReport where
  mode : Mode
  project : String
  dryRun : Bool
  declarations : List DeclarationReport
  failures : List FailedDeclaration
deriving Repr, DecidableEq

namespace GenerationReport

/-- All generated files. -/
def units (r : GenerationReport) : List UnitOutcome :=
  r.declarations.flatMap DeclarationReport.units

/-- How many files were written. -/
def writtenCount (r : GenerationReport) : Nat :=
  (r.units.filter fun u => u.status == .written).length

/-- How many files were left alone. -/
def skippedCount (r : GenerationReport) : Nat :=
  (r.units.filter fun u => u.status == .skipped).length

/-- Some declaration file could not be processed. -/
def hasFailures (r : GenerationReport) : Bool :=
  !r.failures.isEmpty

/-! ### Events -/

/-- The plural ending for some number of things. -/
def plural (count : Nat) : String :=
  if count == 1 then "" else "s"

/-- What the summary says about failures. -/
def failedSuffix (r : GenerationReport) : String :=
  let count := r.failures.length
  if count == 0 then "" else ", " ++ toString count ++ " file" ++ plural count ++ " failed"

/-- What the summary says about the run as a whole. -/
def context (r : GenerationReport) : String :=
  " (" ++ r.mode.name ++ " mode, package " ++ r.project ++ ")" ++ r.failedSuffix

/-- The line of a generated file. -/
def unitEvent (u : UnitOutcome) : Event :=
  match u.status with
  | .written => .addedItem u.path
  | .skipped => .listItem (u.path ++ " (exists, use --force to overwrite)")
  | .preview _ => .listItem u.path

/-- The lines of a declaration file. -/
def declarationEvents (d : DeclarationReport) : List Event :=
  let title := d.path ++ " (" ++ d.repository ++ ", " ++ toString d.methodCount ++ " method" ++
    plural d.methodCount ++ ")"
  .sectionTitle title :: d.units.map unitEvent

/-- The content of a file that would be written. -/
def previewEvents (u : UnitOutcome) : List Event :=
  match u.status with
  | .preview content => [.newline, .divider u.path, .preformatted content]
  | .written | .skipped => []

/-- The end of the report. -/
def summaryEvents (r : GenerationReport) : List Event :=
  if r.dryRun then
    r.units.flatMap previewEvents ++
      [.divider "Summary",
        .preformatted (toString r.units.length ++ " files would be generated" ++ r.context)]
  else
    [.newline,
      .preformatted ("Generated " ++ toString r.writtenCount ++ " files, skipped " ++
        toString r.skippedCount ++ r.context)]

/-- The report: failures, warnings, the files and a summary. -/
def events (r : GenerationReport) : List Event :=
  let failures := r.failures.map fun f => Event.error (f.path ++ ": " ++ f.message)
  let warnings := (r.declarations.flatMap DeclarationReport.warnings).map Event.warning
  failures ++ warnings ++ r.declarations.flatMap declarationEvents ++ r.summaryEvents

end GenerationReport

end UseCases.Report
