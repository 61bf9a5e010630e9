/-
Generation modes: how a use case receives its arguments.
-/
import UseCases.Text.Case
import UseCases.Text.Search

namespace UseCases.Generation

/-- How a use case receives its arguments. -/
inductive Mode where
  /-- Its `call` has the parameters of the repository's method. -/
  | simple
  /-- Its `call` has one parameter, an object that holds the arguments. -/
  | professional
deriving Repr, DecidableEq

namespace Mode

/-- The mode's name. -/
def name : Mode → String
  | .simple => "simple"
  | .professional => "professional"

/-- A class that holds the arguments is generated beside each use case. -/
def hasParams (mode : Mode) : Bool :=
  mode == .professional

/-- The mode that a name or abbreviation means, exactly as it is written. -/
def ofName? : String → Option Mode
  | "simple" => some .simple
  | "professional" | "pro" => some .professional
  | _ => none

/-- A text that names no mode. -/
structure Unknown where
  text : String
deriving Repr, DecidableEq

/-- What is said about a text that names no mode. -/
def Unknown.message (u : Unknown) : String :=
  "unknown mode '" ++ u.text ++ "', expected 'simple' or 'professional'"

/-- The mode that a text means in any letter case. -/
def parse (text : String) : Except Unknown Mode :=
  match ofName? (String.ofList (text.toList.flatMap Text.lower)) with
  | some mode => .ok mode
  | none => .error ⟨text⟩

end Mode

end UseCases.Generation
