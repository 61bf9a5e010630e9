/-
Comments of Dart source.

A line comment runs to the end of its line, block comments nest, and a comment marker
inside a string literal is text. Stripping a source removes the comments and keeps their
newlines, so every character that is left stays on its line.

The reader is an automaton that reads one character at a time. A `/` or `*` may be half of
a marker, so what follows it decides; the state remembers it until then.
-/
namespace UseCases.Dart

/-- Where a reader of source text stands between two characters. -/
inductive Region where
  /-- Outside comments and literals. -/
  | code
  /-- Outside, just after a `/` that may open a comment. -/
  | slash
  /-- Inside a literal that `quote` closes; the end of the line closes it too. -/
  | literal (quote : Char)
  /-- Inside such a literal, just after a backslash. -/
  | escape (quote : Char)
  /-- Inside a line comment. -/
  | lineComment
  /-- Inside a block comment that lies in `outer` others. -/
  | block (outer : Nat)
  /-- Inside such a block comment, just after a `/` that may open one more. -/
  | blockSlash (outer : Nat)
  /-- Inside such a block comment, just after a `*` that may close it. -/
  | blockStar (outer : Nat)
deriving Repr, DecidableEq

/-- A character that opens and closes a string literal. -/
def isQuote (c : Char) : Bool :=
  c == '\'' || c == '"'

namespace Region

/-- The region after a character of code that closes no marker. -/
def ofCode (c : Char) : Region :=
  if c = '/' then .slash else if isQuote c then .literal c else .code

/-- The region after a character of a block comment that closes no marker. -/
def ofBlock (outer : Nat) (c : Char) : Region :=
  if c = '/' then .blockSlash outer else if c = '*' then .blockStar outer else .block outer

/-- The region that a closed block comment leaves its reader in. -/
def outside : Nat → Region
  | 0 => .code
  | outer + 1 => .block outer

/-- The region after one more character. -/
def next : Region → Char → Region
  | .code, c => ofCode c
  | .slash, c => if c = '/' then .lineComment else if c = '*' then .block 0 else ofCode c
  | .literal q, c => if c = '\\' then .escape q else if c = q ∨ c = '\n' then .code else .literal q
  | .escape q, _ => .literal q
  | .lineComment, c => if c = '\n' then .code else .lineComment
  | .block n, c => ofBlock n c
  | .blockSlash n, c => if c = '*' then .block (n + 1) else ofBlock n c
  | .blockStar n, c => if c = '/' then outside n else ofBlock n c

/-- What is kept of the source when one more character is read. -/
def emit : Region → Char → List Char
  | .code, c => if c = '/' then [] else [c]
  | .slash, c => if c = '/' ∨ c = '*' then [] else ['/', c]
  | .literal _, c | .escape _, c => [c]
  | .lineComment, c | .block _, c | .blockSlash _, c | .blockStar _, c =>
    if c = '\n' then [c] else []

/-- What is kept when the source ends here: a `/` that opened nothing. -/
def flush : Region → List Char
  | .slash => ['/']
  | _ => []

/-- The region after a text. -/
def after (region : Region) (text : List Char) : Region :=
  text.foldl next region

end Region

/-- What is kept of a text that is read from `region` on. -/
def keep (region : Region) : List Char → List Char
  | [] => region.flush
  | c :: cs => region.emit c ++ keep (region.next c) cs

/-- The source without its comments. -/
def stripComments (source : List Char) : List Char :=
  keep .code source

end UseCases.Dart
