/-
Generated classes: fields, then the constructor, then the methods, with a blank line
between these groups and between methods.
-/
import UseCases.Dart.Member

namespace UseCases.Dart

/-- A class declaration. -/
structure ClassDefinition where
  name : String
  superclass : Option String
  fields : List Field
  constructor? : Option Constructor
  methods : List Callable
deriving Repr, DecidableEq

/-- The groups one after the other, with a blank line between two of them. -/
def separated : List (List Fragment) → List Fragment
  | [] => []
  | [group] => group
  | group :: next :: rest => group ++ .blank :: separated (next :: rest)

namespace ClassDefinition

/-- The line that opens the class. -/
def header (c : ClassDefinition) : String :=
  match c.superclass with
  | some superclass => "class " ++ c.name ++ " extends " ++ superclass ++ " \x7b"
  | none => "class " ++ c.name ++ " \x7b"

/-- The groups of members that the class has. -/
def groups (c : ClassDefinition) : List (List Fragment) :=
  let fields := if c.fields.isEmpty then [] else [c.fields.flatMap Field.fragments]
  let constructors := c.constructor?.toList.map Constructor.fragments
  fields ++ constructors ++ c.methods.map Callable.fragments

/-- The class as code. -/
def fragments (c : ClassDefinition) : List Fragment :=
  [.braced c.header (separated c.groups)]

end ClassDefinition

end UseCases.Dart
