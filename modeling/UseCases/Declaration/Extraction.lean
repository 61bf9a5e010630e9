/-
Extraction: the repository methods of a declaration file.

A declaration stands on one line. The comments are stripped, every line is trimmed and
read on its own, and a line that carries the marker of a shape is a candidate: it either
declares a method or is refused for one reason. Methods, diagnostics and log records are
three views of the list of candidates.
-/
import UseCases.Dart.Comment
import UseCases.Declaration.Diagnostic
import UseCases.Declaration.Header
import UseCases.Declaration.ParameterList
import UseCases.Log

namespace UseCases.Declaration

open Dart Text

/-- Why a candidate declares no method. -/
inductive Refusal where
  /-- It is a getter. -/
  | getter (name : String)
  /-- It has the marker of a shape and not its header. -/
  | unrecognized (shape : Shape) (line : String)
  /-- Its parameter list goes on after the line. -/
  | unclosed (name : String)
deriving Repr, DecidableEq

/-- The phase that diagnostics about declarations name. -/
def extractPhase : String := "extract"

/-- The phase that diagnostics about parameters name. -/
def parametersPhase : String := "parameters"

/-- The diagnostic of a refusal, not located yet. -/
def Refusal.diagnostic : Refusal → Diagnostic
  | .getter name =>
    .info extractPhase ("getter `" ++ name ++ "` has no parameter list and was skipped")
  | .unrecognized shape line =>
    .warning extractPhase ("unrecognized " ++ shape.describe ++ " declaration `" ++ line ++
      "` (return types may nest generics one level deep)")
  | .unclosed name =>
    .warning extractPhase ("parameter list of `" ++ name ++ "` is not closed on the same line")

/-- What a candidate line turned out to be. -/
inductive Outcome where
  /-- A method, and the entries of its parameter list that were rejected. -/
  | declared (method : Method) (rejected : List String)
  | refused (refusal : Refusal)
deriving Repr, DecidableEq

/-- A candidate on its line, counted from one. -/
structure Candidate where
  line : Nat
  outcome : Outcome
deriving Repr, DecidableEq

/-- Why a line without the header of its shape is refused. -/
def refuse (shape : Shape) (line : List Char) : Refusal :=
  match getter? line with
  | some name => .getter (String.ofList name)
  | none => .unrecognized shape (String.ofList line)

/-- What a line of the given shape turns out to be. -/
def readDeclaration (shape : Shape) (number : Nat) (line : List Char) : Outcome :=
  match header? shape line with
  | none => .refused (refuse shape line)
  | some header =>
    match enclosed? '(' ')' header.rest with
    | none => .refused (.unclosed (String.ofList header.name))
    | some parameters =>
      let found := entries parameters.inside
      .declared
        { name := String.ofList header.name
          payload := String.ofList header.payload
          parameters := accepted found
          shape
          line := number }
        (rejected found)

section

variable {shape : Shape} {number : Nat} {line : List Char}

/-- A line declares a method if it has a header and its parameter list is closed. -/
theorem readDeclaration_eq_declared_iff {method : Method} {dropped : List String} :
    readDeclaration shape number line = .declared method dropped ↔
      ∃ header parameters, header? shape line = some header ∧
        enclosed? '(' ')' header.rest = some parameters ∧
        method = ⟨String.ofList header.name, String.ofList header.payload,
          accepted (entries parameters.inside), shape, number⟩ ∧
        dropped = rejected (entries parameters.inside) := by
  unfold readDeclaration
  constructor
  · intro h
    split at h
    · cases h
    · rename_i header hheader
      split at h
      · cases h
      · rename_i parameters henclosed
        cases h
        exact ⟨header, parameters, hheader, henclosed, rfl, rfl⟩
  · rintro ⟨header, parameters, hheader, henclosed, rfl, rfl⟩
    simp only [hheader, henclosed]

/-- A line is refused if it has no header, or if its parameter list is not closed. -/
theorem readDeclaration_eq_refused_iff {refusal : Refusal} :
    readDeclaration shape number line = .refused refusal ↔
      (header? shape line = none ∧ refusal = refuse shape line) ∨
        ∃ header, header? shape line = some header ∧
          enclosed? '(' ')' header.rest = none ∧
          refusal = .unclosed (String.ofList header.name) := by
  unfold readDeclaration
  constructor
  · intro h
    split at h
    · rename_i hheader
      cases h
      exact Or.inl ⟨hheader, rfl⟩
    · rename_i header hheader
      split at h
      · rename_i henclosed
        cases h
        exact Or.inr ⟨header, hheader, henclosed, rfl⟩
      · cases h
  · rintro (⟨hheader, rfl⟩ | ⟨header, hheader, henclosed, rfl⟩)
    · simp only [hheader]
    · simp only [hheader, henclosed]

end

/-- The candidate on a line of stripped source, if it carries the marker of a shape. -/
def readLine? (number : Nat) (line : List Char) : Option Candidate :=
  let line := trim line
  (classify line).map fun shape => ⟨number, readDeclaration shape number line⟩

/-- The candidates among lines that are numbered from `number` on. -/
def readLines (number : Nat) : List (List Char) → List Candidate
  | [] => []
  | line :: rest => (readLine? number line).toList ++ readLines (number + 1) rest

/-- The candidates of a declaration file, in the order of their lines. -/
structure Extraction where
  candidates : List Candidate
deriving Repr, DecidableEq

/-- The candidates of a source text. -/
def extract (source : String) : Extraction :=
  ⟨readLines 1 (lines (stripComments source.toList))⟩

namespace Candidate

/-- The method that the candidate declares. -/
def method? (c : Candidate) : Option Method :=
  match c.outcome with
  | .declared method _ => some method
  | .refused _ => none

/-- What is remarked about a dropped parameter. -/
def droppedParameter (method : Method) (entry : String) : Diagnostic :=
  .warning parametersPhase
    ("parameter `" ++ entry ++ "` of `" ++ method.name ++ "` was not recognized and was dropped")

/-- The remarks about a candidate: one for each parameter it lost, or the one refusal. -/
def diagnostics (c : Candidate) : List Diagnostic :=
  match c.outcome with
  | .declared method rejected =>
    rejected.map fun entry => (droppedParameter method entry).onLine c.line
  | .refused refusal => [refusal.diagnostic.onLine c.line]

/-- What reading the candidate leaves in the log. -/
def log (c : Candidate) : List LogRecord :=
  let place := "line " ++ toString c.line ++ ": "
  match c.outcome with
  | .declared _ rejected =>
    rejected.map fun entry => ⟨.debug, place ++ "dropped parameter `" ++ entry ++ "`"⟩
  | .refused refusal => [⟨.debug, place ++ refusal.diagnostic.message⟩]

end Candidate

namespace Extraction

/-- The methods, in the order of their lines. -/
def methods (e : Extraction) : List Method :=
  e.candidates.filterMap Candidate.method?

/-- What is remarked of a file without methods. -/
def noMethods : Diagnostic :=
  .warning extractPhase "no repository methods found"

/-- The remarks about the candidates, and a last one when there is no method. -/
def diagnostics (e : Extraction) : List Diagnostic :=
  e.candidates.flatMap Candidate.diagnostics ++ if e.methods.isEmpty then [noMethods] else []

/-- The diagnostics that are warnings. -/
def warnings (e : Extraction) : List Diagnostic :=
  e.diagnostics.filter fun d => d.severity == .warning

/-- What the extraction leaves in the log. -/
def log (e : Extraction) : List LogRecord :=
  e.candidates.flatMap Candidate.log

end Extraction

end UseCases.Declaration
