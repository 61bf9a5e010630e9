/-
Repository methods as their declarations state them.

A method is known by its shape (what its return type wraps), the payload inside that
wrapper, and its parameters, each with the calling convention it was declared under.
-/
import UseCases.Text.Search

namespace UseCases.Declaration

/-- What the return type of a repository method wraps. -/
inductive Shape where
  /-- `Future<T>` -/
  | plainFuture
  /-- `Future<Either<Failure, T>>` -/
  | errorUnionFuture
  /-- `Stream<T>` -/
  | stream
deriving Repr, DecidableEq

namespace Shape

/-- The shape in words. -/
def describe : Shape → String
  | .plainFuture => "future"
  | .errorUnionFuture => "either future"
  | .stream => "stream"

/-- The shape's key in a listing. -/
def key : Shape → String
  | .plainFuture => "plain_future"
  | .errorUnionFuture => "error_union_future"
  | .stream => "stream"

/-- Values of this shape carry a `Failure` branch. -/
def isErrorUnion (shape : Shape) : Bool :=
  shape == .errorUnionFuture

/-- The return type that wraps `payload`. The left side of an error union is written as
`Failure`, whatever the declaration called it. -/
def wrap (shape : Shape) (payload : String) : String :=
  match shape with
  | .errorUnionFuture => "Future<Either<Failure, " ++ payload ++ ">>"
  | .plainFuture => "Future<" ++ payload ++ ">"
  | .stream => "Stream<" ++ payload ++ ">"

end Shape

/-- Where a parameter stands in its list. -/
inductive ParameterKind where
  | positional
  /-- Inside a `[…]` group. -/
  | optionalPositional
  /-- Inside a braced group, without `required`. -/
  | named
  /-- Inside a braced group, with `required`. -/
  | requiredNamed
deriving Repr, DecidableEq

namespace ParameterKind

/-- The kind's key in a listing. -/
def key : ParameterKind → String
  | .positional => "positional"
  | .optionalPositional => "optional_positional"
  | .named => "named"
  | .requiredNamed => "required_named"

/-- Arguments of this kind are passed as `name: value`. -/
def isNamed (kind : ParameterKind) : Bool :=
  kind == .named || kind == .requiredNamed

/-- Arguments of this kind may be left out by a caller. -/
def isOptional (kind : ParameterKind) : Bool :=
  kind == .named || kind == .optionalPositional

end ParameterKind

/-- One declared parameter. -/
structure Parameter where
  type : String
  name : String
  kind : ParameterKind
  /-- The expression after `=`. -/
  default : Option String
deriving Repr, DecidableEq

/-- The parameter as it is written inside its group. -/
def Parameter.declaration (p : Parameter) : String :=
  let required := if p.kind = .requiredNamed then "required " else ""
  let value := match p.default with
    | some value => " = " ++ value
    | none => ""
  required ++ p.type ++ " " ++ p.name ++ value

/-- One repository method. -/
structure Method where
  name : String
  /-- The type inside the wrapper that the shape names. -/
  payload : String
  /-- In the order of declaration. -/
  parameters : List Parameter
  shape : Shape
  /-- The line of the declaration, counted from one. -/
  line : Nat
deriving Repr, DecidableEq

namespace Method

/-- The payload is literally `void`. -/
def isVoid (m : Method) : Bool :=
  m.payload == "void"

/-- The return type that a use case of this method declares. -/
def returnType (m : Method) : String :=
  m.shape.wrap m.payload

end Method

end UseCases.Declaration
