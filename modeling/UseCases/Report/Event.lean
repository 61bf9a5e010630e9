/-
Report events: what a report says, line by line, before it is known where it is said.

On a terminal a report goes to standard output, and what it warns of to standard error.
-/
namespace UseCases.Report

/-- One thing that a report says. -/
inductive Event where
  /-- A heading. -/
  | sectionTitle (title : String)
  | keyValue (key value : String)
  | listItem (text : String)
  /-- Something that is new. -/
  | addedItem (text : String)
  | warning (text : String)
  | note (text : String)
  | error (text : String)
  | divider (label : String)
  /-- Text as it is. -/
  | preformatted (text : String)
  | newline
deriving Repr, DecidableEq

/-- What an event prints on standard output, and what on standard error. -/
structure Printed where
  out : String
  err : String
deriving Repr, DecidableEq

/-- What an event prints on a terminal. -/
def Event.print : Event → Printed
  | .sectionTitle title => ⟨title ++ ":\n", ""⟩
  | .keyValue key value => ⟨"  " ++ key ++ ": " ++ value ++ "\n", ""⟩
  | .listItem text => ⟨"  - " ++ text ++ "\n", ""⟩
  | .addedItem text => ⟨"  + " ++ text ++ "\n", ""⟩
  | .warning text => ⟨"", "warning: " ++ text ++ "\n"⟩
  | .note text => ⟨"", "info: " ++ text ++ "\n"⟩
  | .error text => ⟨"", "error: " ++ text ++ "\n"⟩
  | .divider label => ⟨"── " ++ label ++ " ──\n", ""⟩
  | .preformatted text => ⟨text ++ "\n", ""⟩
  | .newline => ⟨"\n", ""⟩

/-- What some events print on a terminal. -/
def printAll : List Event → Printed
  | [] => ⟨"", ""⟩
  | e :: rest =>
    let first := e.print
    let others := printAll rest
    ⟨first.out ++ others.out, first.err ++ others.err⟩

end UseCases.Report
