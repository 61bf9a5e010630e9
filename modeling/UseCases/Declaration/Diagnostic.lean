/-
Diagnostics: what was left out of a declaration file, and why.

Nothing in a declaration file is fatal. A declaration that is not understood is left out
and described, and the reader of the report decides what it means.
-/
namespace UseCases.Declaration

/-- How serious a diagnostic is. -/
inductive Severity where
  /-- Something was dropped, or nothing was found. -/
  | warning
  | info
deriving Repr, DecidableEq

/-- The word a severity is printed as. -/
def Severity.word : Severity → String
  | .warning => "warning"
  | .info => "info"

/-- A remark about a declaration file. -/
structure Diagnostic where
  severity : Severity
  /-- The stage that made the remark. -/
  phase : String
  message : String
  /-- Where in the source, in words. -/
  location : Option String
deriving Repr, DecidableEq

namespace Diagnostic

/-- A warning without a location. -/
def warning (phase message : String) : Diagnostic :=
  ⟨.warning, phase, message, none⟩

/-- An informational remark without a location. -/
def info (phase message : String) : Diagnostic :=
  ⟨.info, phase, message, none⟩

/-- The diagnostic, located at `location`. -/
def located (d : Diagnostic) (location : String) : Diagnostic :=
  { d with location := some location }

/-- The diagnostic, located at a line counted from one. -/
def onLine (d : Diagnostic) (line : Nat) : Diagnostic :=
  d.located ("line " ++ toString line)

/-- The diagnostic on one line. -/
def text (d : Diagnostic) : String :=
  let place := match d.location with
    | some location => " (at " ++ location ++ ")"
    | none => ""
  d.severity.word ++ ": " ++ d.message ++ place

end Diagnostic

end UseCases.Declaration
