/-
Positions in a YAML text.

YAML is laid out by columns, so a position knows its line and column along with the text
that is left. A line ends with any of the five breaks of YAML 1.1, and a carriage return
followed by a newline is one break.
-/
namespace UseCases.Yaml

/-- White space inside a line. -/
def isBlank (c : Char) : Bool :=
  c == ' ' || c == '\t'

/-- A character that ends a line. -/
def isBreak (c : Char) : Bool :=
  c == '\n' || c == '\r' || c == '\u0085' || c == '\u2028' || c == '\u2029'

/-- A character that a YAML text may contain. -/
def isPrintable (c : Char) : Bool :=
  let n := c.toNat
  n == 0x09 || n == 0x0a || n == 0x0d || (0x20 ≤ n && n ≤ 0x7e) || n == 0x85 ||
    (0xa0 ≤ n && n ≤ 0xfffd) || 0x10000 ≤ n

/-- A position in a text. -/
structure Cursor where
  rest : List Char
  line : Nat
  column : Nat
  /-- How many characters stand before it. -/
  index : Nat
deriving Repr, DecidableEq

namespace Cursor

/-- The position after one character of the line. -/
def next (p : Cursor) : Cursor :=
  { p with rest := p.rest.tail, column := p.column + 1, index := p.index + 1 }

/-- The start of a text. A byte order mark in front is no content, but it has a column. -/
def start (text : List Char) : Cursor :=
  let p : Cursor := ⟨text, 0, 0, 0⟩
  if text.head? == some '\ufeff' then p.next else p

/-- The position after some characters of the line. -/
def skip (p : Cursor) (count : Nat) : Cursor :=
  { p with rest := p.rest.drop count, column := p.column + count, index := p.index + count }

/-- The position after the break that stands here. -/
def nextLine (p : Cursor) : Cursor :=
  match p.rest with
  | '\r' :: '\n' :: cs => ⟨cs, p.line + 1, 0, p.index + 2⟩
  | _ :: cs => ⟨cs, p.line + 1, 0, p.index + 1⟩
  | [] => p

/-- What the break that stands here becomes in a scalar. -/
def breakText (p : Cursor) : List Char :=
  match p.rest with
  | '\u2028' :: _ => ['\u2028']
  | '\u2029' :: _ => ['\u2029']
  | [] => []
  | _ :: _ => ['\n']

/-- The line ends here. -/
def atBreak (p : Cursor) : Bool :=
  match p.rest with
  | c :: _ => isBreak c
  | [] => false

/-- White space stands here. -/
def atBlank (p : Cursor) : Bool :=
  match p.rest with
  | c :: _ => isBlank c
  | [] => false

/-- The character stands here. -/
def at? (p : Cursor) (c : Char) : Bool :=
  p.rest.head? == some c

/-- White space, a break or the end of the text. -/
def isGap : List Char → Bool
  | [] => true
  | c :: _ => isBlank c || isBreak c

/-- A line that starts here starts with the marker of a document's start or end. -/
def atDocumentMarker (p : Cursor) : Bool :=
  p.column == 0 &&
    match p.rest with
    | '-' :: '-' :: '-' :: cs | '.' :: '.' :: '.' :: cs => isGap cs
    | _ => false

/-- The position after the characters of the line that `p` holds of. -/
def skipWhile (p : Cursor) (test : Char → Bool) : Cursor :=
  p.skip (p.rest.takeWhile fun c => test c && !isBreak c).length

end Cursor

end UseCases.Yaml
