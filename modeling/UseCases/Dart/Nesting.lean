/-
Cutting a declaration at nesting depth zero.

A comma or `=` inside brackets or inside a string literal belongs to the entry around it.
All four kinds of brackets count alike, and a closing bracket at depth zero stays there.
Every cut of a parameter list goes through the functions below.
-/
import UseCases.Dart.Literal
import UseCases.Text.Blank

namespace UseCases.Dart

/-- A bracket that nests what follows it. -/
def isOpening (c : Char) : Bool :=
  c == '<' || c == '(' || c == '[' || c == '\x7b'

/-- A bracket that ends a nesting. -/
def isClosing (c : Char) : Bool :=
  c == '>' || c == ')' || c == ']' || c == '\x7d'

/-- Where a reader stands: with respect to literals, and how deep in brackets. -/
structure Place where
  literal : Literal
  depth : Nat
deriving Repr, DecidableEq

namespace Place

/-- Outside literals and brackets. -/
def top : Place := ⟨.outside, 0⟩

/-- The depth after a bracket of code. -/
def deepen (depth : Nat) (c : Char) : Nat :=
  if isOpening c then depth + 1 else if isClosing c then depth - 1 else depth

/-- The place after one more character. -/
def next (p : Place) (c : Char) : Place :=
  ⟨p.literal.next c, if p.literal.isCode c then deepen p.depth c else p.depth⟩

/-- The character read from this place is code outside all brackets. -/
def isTop (p : Place) (c : Char) : Bool :=
  p.literal.isCode c && p.depth == 0

end Place

/-! ### Cuts -/

/-- A text cut at one character: what stands before it, the character, what stands after. -/
structure Cut where
  before : List Char
  mark : Char
  after : List Char
deriving Repr, DecidableEq

/-- The first character outside literals and brackets that `isCut` holds of, read from
`place` on. -/
def cutFrom? (isCut : Char → Bool) (place : Place) : List Char → Option Cut
  | [] => none
  | c :: cs =>
    if place.isTop c && isCut c then some ⟨[], c, cs⟩
    else (cutFrom? isCut (place.next c) cs).map fun cut => { cut with before := c :: cut.before }

/-- The text cut at its first character outside literals and brackets that `isCut` holds of. -/
def cut? (isCut : Char → Bool) (text : List Char) : Option Cut :=
  cutFrom? isCut .top text

/-- The pieces between the separators at depth zero, read from `place` on. After a separator
the reader stands at the top again. -/
def piecesFrom (separator : Char) (place : Place) : List Char → List (List Char)
  | [] => [[]]
  | c :: cs =>
    if place.isTop c && c == separator then [] :: piecesFrom separator .top cs
    else
      match piecesFrom separator (place.next c) cs with
      | [] => [[c]]
      | piece :: pieces => (c :: piece) :: pieces

/-- The pieces of a text between its separators at depth zero. -/
def pieces (separator : Char) (text : List Char) : List (List Char) :=
  piecesFrom separator .top text

/-- The entries of a text: its pieces, trimmed, without the empty ones. -/
def splitTopLevel (separator : Char) (text : List Char) : List (List Char) :=
  ((pieces separator text).map Text.trim).filter fun entry => !entry.isEmpty

/-! ### Matching brackets -/

/-- A text that starts inside a bracket: what stands inside, and what follows the bracket. -/
structure Enclosed where
  inside : List Char
  after : List Char
deriving Repr, DecidableEq

/-- The text up to the bracket that closes the one it started in. Only the two given
brackets count, and `depth` more of them are open. -/
def enclosedFrom? (opening closing : Char) (literal : Literal) (depth : Nat) :
    List Char → Option Enclosed
  | [] => none
  | c :: cs =>
    let code := literal.isCode c
    if code && c == closing && depth == 0 then some ⟨[], cs⟩
    else
      let depth :=
        if code && c == opening then depth + 1
        else if code && c == closing then depth - 1
        else depth
      (enclosedFrom? opening closing (literal.next c) depth cs).map fun e =>
        { e with inside := c :: e.inside }

/-- The text just after `opening`, up to the `closing` that matches it. -/
def enclosed? (opening closing : Char) (text : List Char) : Option Enclosed :=
  enclosedFrom? opening closing .outside 0 text

end UseCases.Dart
