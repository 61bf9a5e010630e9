/-
Headers: a declaration up to the parenthesis that opens its parameter list.

The shape of a line is decided by a marker. An error union may be marked anywhere in the
line and its header may start anywhere; a plain future or a stream starts the line. The
header is then the text `Future<T> name(`, with white space allowed between its parts.
-/
import UseCases.Dart.Token
import UseCases.Declaration.Method
import UseCases.Text.Search

namespace UseCases.Declaration

open Dart Text

/-- The start of a plain future. -/
def futureMarker : List Char := "Future<".toList

/-- The start of a stream. -/
def streamMarker : List Char := "Stream<".toList

/-- The start of the union inside a future. -/
def eitherMarker : List Char := "Either<".toList

/-- The marker of an error union. -/
def errorUnionMarker : List Char := futureMarker ++ eitherMarker

/-- The shape that a trimmed line declares, by its marker; the error union goes first. -/
def classify (line : List Char) : Option Shape :=
  if contains errorUnionMarker line then some .errorUnionFuture
  else if startsWith futureMarker line then some .plainFuture
  else if startsWith streamMarker line then some .stream
  else none

/-- The head of a declaration. -/
structure Header where
  name : List Char
  payload : List Char
  /-- The text after the opening parenthesis. -/
  rest : List Char
deriving Repr, DecidableEq

/-- The closing `>` of the wrapper, the method's name and the opening parenthesis. -/
def finishHeader? (payload text : List Char) : Option Header := do
  let text ← readMark? '>' text
  let name ← readIdentifier? (skipBlanks text)
  let rest ← readMark? '(' name.rest
  return ⟨name.token, payload, rest⟩

/-- A header that starts with `marker` and wraps the payload once. -/
def readWrapped? (marker text : List Char) : Option Header := do
  let text ← after? marker text
  let payload ← readType? (skipBlanks text)
  finishHeader? payload.token payload.rest

/-- A header whose future wraps a union. The left side of the union has to be a type token
and is not kept. -/
def readErrorUnion? (text : List Char) : Option Header := do
  let text ← after? futureMarker text
  let text ← after? eitherMarker (skipBlanks text)
  let left ← readType? (skipBlanks text)
  let text ← readMark? ',' left.rest
  let payload ← readType? (skipBlanks text)
  let text ← readMark? '>' payload.rest
  finishHeader? payload.token text

/-- The header of a line that was classified as `shape`. For an error union it is the first
one in the line; for the other shapes it starts the line. -/
def header? (shape : Shape) (line : List Char) : Option Header :=
  match shape with
  | .errorUnionFuture => firstMatch? readErrorUnion? line
  | .plainFuture => readWrapped? futureMarker line
  | .stream => readWrapped? streamMarker line

/-- The text goes on with the end of a getter: `;`, `=>` or an opening brace. -/
def endsGetter (text : List Char) : Bool :=
  match skipBlanks text with
  | ';' :: _ | '\x7b' :: _ | '=' :: '>' :: _ => true
  | _ => false

/-- The name of a getter whose return type ends at the start of the text. -/
def readGetter? (text : List Char) : Option (List Char) := do
  let text ← after? ['>'] text
  let text ← after? "get".toList (skipBlanks text)
  let text ← skipSomeBlanks? text
  let name ← readIdentifier? text
  if endsGetter name.rest then some name.token else none

/-- The name of the getter that a line declares. -/
def getter? (line : List Char) : Option (List Char) :=
  firstMatch? readGetter? line

end UseCases.Declaration
