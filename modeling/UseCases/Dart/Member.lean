/-
Members of generated classes: final fields, constructors and methods.
-/
import UseCases.Dart.Layout
import UseCases.Text.Search

namespace UseCases.Dart

/-- A `final` instance field. -/
structure Field where
  type : String
  name : String
deriving Repr, DecidableEq

namespace Field

/-- The declaration of the field. -/
def declaration (f : Field) : String :=
  "final " ++ f.type ++ " " ++ f.name ++ ";"

/-- The field as code. -/
def fragments (f : Field) : List Fragment :=
  [.line f.declaration]

end Field

/-- A constructor without a body. Its parameters are written as they are given, the named
ones in braces after the others. -/
structure Constructor where
  className : String
  isConst : Bool
  positional : List String
  named : List String
deriving Repr, DecidableEq

namespace Constructor

/-- The parameters between the parentheses. -/
def parameters (c : Constructor) : String :=
  let group := if c.named.isEmpty then [] else ["\x7b" ++ Text.join ", " c.named ++ "\x7d"]
  Text.join ", " (c.positional ++ group)

/-- The declaration of the constructor. -/
def declaration (c : Constructor) : String :=
  let keyword := if c.isConst then "const " else ""
  keyword ++ c.className ++ "(" ++ c.parameters ++ ");"

/-- The constructor as code. -/
def fragments (c : Constructor) : List Fragment :=
  [.line c.declaration]

end Constructor

/-- What a method or getter runs. -/
inductive Body where
  /-- A single expression. -/
  | arrow (expression : String)
  | lines (lines : List String)
deriving Repr, DecidableEq

/-- How a method is called. -/
inductive Call where
  /-- Without an argument list. -/
  | getter
  /-- With this parameter list. -/
  | withParameters (parameters : String)
deriving Repr, DecidableEq

/-- A method or getter of a generated class. -/
structure Callable where
  name : String
  returnType : String
  call : Call
  isAsync : Bool
  isOverride : Bool
  body : Body
deriving Repr, DecidableEq

namespace Callable

/-- The member up to its body. -/
def signature (f : Callable) : String :=
  let head := match f.call with
    | .getter => f.returnType ++ " get " ++ f.name
    | .withParameters parameters => f.returnType ++ " " ++ f.name ++ "(" ++ parameters ++ ")"
  if f.isAsync then head ++ " async" else head

/-- The member as code. -/
def fragments (f : Callable) : List Fragment :=
  let annotation := if f.isOverride then [.line "@override"] else []
  let definition : Fragment := match f.body with
    | .arrow expression => .line (f.signature ++ " => " ++ expression ++ ";")
    | .lines body => .braced (f.signature ++ " \x7b") (body.map .line)
  annotation ++ [definition]

end Callable

end UseCases.Dart
