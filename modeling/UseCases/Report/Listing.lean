/-
Listings: the methods that were found in each declaration file.
-/
import UseCases.Declaration.Diagnostic
import UseCases.Declaration.Method
import UseCases.Files.Path
import UseCases.Json
import UseCases.Report.Event

namespace UseCases.Report

open Declaration Files

/-- What was found in a declaration file. -/
structure ListedDeclaration where
  path : Path
  /-- The repository class, if one is declared. -/
  repository : Option String
  methods : List Method
  /-- The diagnostics, with their places. -/
  notes : List (Severity × String)
deriving Repr, DecidableEq

/-- What was found in some declaration files. -/
structure Listing where
  declarations : List ListedDeclaration
deriving Repr, DecidableEq

namespace Listing

/-! ### Events -/

/-- The line of a method. -/
def methodEvent (m : Method) : Event :=
  let parameters := Text.join ", " (m.parameters.map Parameter.declaration)
  .keyValue (m.name ++ "(" ++ parameters ++ ")")
    (m.returnType ++ " [" ++ m.shape.describe ++ ", line " ++ toString m.line ++ "]")

/-- The line of a diagnostic. -/
def noteEvent : Severity × String → Event
  | (.warning, text) => .warning text
  | (.info, text) => .note text

/-- The lines of a declaration file. -/
def declarationEvents (d : ListedDeclaration) : List Event :=
  let repository := d.repository.getD "no repository class"
  .sectionTitle (d.path ++ " (" ++ repository ++ ")") ::
    (d.methods.map methodEvent ++ d.notes.map noteEvent)

/-- The groups of lines with a blank line between two of them. -/
def withGaps : List (List Event) → List Event
  | [] => []
  | [group] => group
  | group :: next :: rest => group ++ .newline :: withGaps (next :: rest)

/-- The listing as a report. -/
def events (l : Listing) : List Event :=
  withGaps (l.declarations.map declarationEvents)

/-! ### JSON -/

/-- A parameter; a default that is missing is left out. -/
def parameterJson (p : Parameter) : Json :=
  let value := match p.default with
    | some value => [("default_value", Json.text value)]
    | none => []
  .object ([("ty", .text p.type), ("name", .text p.name), ("kind", .text p.kind.key)] ++ value)

/-- A method. -/
def methodJson (m : Method) : Json :=
  .object
    [("name", .text m.name), ("return_type", .text m.payload),
      ("parameters", .array (m.parameters.map parameterJson)), ("shape", .text m.shape.key),
      ("line", .number m.line)]

/-- A diagnostic: its severity and its text. -/
def noteJson (note : Severity × String) : Json :=
  .array [.text note.1.word, .text note.2]

/-- What was found in a declaration file. -/
def declarationJson (d : ListedDeclaration) : Json :=
  let repository := match d.repository with
    | some name => Json.text name
    | none => .null
  .object
    [("path", .text d.path), ("repository", repository),
      ("methods", .array (d.methods.map methodJson)), ("notes", .array (d.notes.map noteJson))]

/-- The listing as JSON. -/
def json (l : Listing) : Json :=
  .object [("declarations", .array (l.declarations.map declarationJson))]

end Listing

end UseCases.Report
