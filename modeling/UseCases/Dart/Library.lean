/-
Generated libraries: import directives, then declarations.

A library imports a URI once, however often it is asked to, and keeps the order in which
the URIs were first named. A blank line stands after the imports and between declarations.
-/
import UseCases.Dart.ClassDefinition

namespace UseCases.Dart

/-- An import directive. -/
structure Import where
  uri : String
deriving Repr, DecidableEq

namespace Import

/-- The import of a file of a package. -/
def package (name path : String) : Import :=
  ⟨"package:" ++ name ++ "/" ++ path⟩

/-- The directive. -/
def directive (i : Import) : String :=
  "import '" ++ i.uri ++ "';"

/-- The directive as code. -/
def fragments (i : Import) : List Fragment :=
  [.line i.directive]

end Import

/-- A library under construction. -/
structure Library where
  imports : List Import
  /-- The fragments of each declaration. -/
  body : List (List Fragment)
deriving Repr

namespace Library

/-- The library without imports and declarations. -/
def empty : Library := ⟨[], []⟩

/-- Adds an import, unless its URI is imported already. -/
def addImport (l : Library) (i : Import) : Library :=
  if i ∈ l.imports then l else { l with imports := l.imports ++ [i] }

/-- Adds imports in their order. -/
def addImports (l : Library) (imports : List Import) : Library :=
  imports.foldl addImport l

/-- Adds a declaration. -/
def add (l : Library) (declaration : List Fragment) : Library :=
  { l with body := l.body ++ [declaration] }

/-- The library has neither imports nor declarations. -/
def isEmpty (l : Library) : Bool :=
  l.imports.isEmpty && l.body.isEmpty

/-- The library as code. -/
def fragments (l : Library) : List Fragment :=
  let gap := if l.imports.isEmpty || l.body.isEmpty then [] else [.blank]
  l.imports.flatMap Import.fragments ++ gap ++ separated l.body

/-- The text of the library. -/
def render (l : Library) (indent : Indent) : String :=
  layOut indent l.fragments

end Library

end UseCases.Dart
