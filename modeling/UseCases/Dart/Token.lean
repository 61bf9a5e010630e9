/-
Identifiers and type tokens of Dart declarations.

A type token is a head of identifier characters and dots, at most one group of generic
arguments that holds no further angle brackets, and an optional question mark:
`int`, `lib.User?`, `Map<String, int>`. Each reader takes the longest token at the start of
a text and returns what follows it.
-/
import UseCases.Text.Blank
import UseCases.Text.Word

namespace UseCases.Dart

/-- A character that can start an identifier: an ASCII letter, `_` or `$`. -/
def isHead (c : Char) : Bool :=
  c.isAlpha || c == '_' || c == '$'

/-- A character that can continue an identifier. -/
def isIdentifierChar (c : Char) : Bool :=
  Text.isWord c || c == '$'

/-- A character that can continue the head of a type token. -/
def isTypeChar (c : Char) : Bool :=
  isIdentifierChar c || c == '.'

/-- A token read at the start of a text, and the rest of the text. -/
structure Lexeme where
  token : List Char
  rest : List Char
deriving Repr, DecidableEq

/-- A head character and the characters after it that `continues` holds of. -/
def readName? (continues : Char → Bool) : List Char → Option Lexeme
  | [] => none
  | c :: cs =>
    if isHead c then some ⟨c :: cs.takeWhile continues, cs.dropWhile continues⟩ else none

/-- The identifier at the start of a text. -/
def readIdentifier? (text : List Char) : Option Lexeme :=
  readName? isIdentifierChar text

/-- A character that may stand among generic arguments. -/
def isArgumentChar (c : Char) : Bool :=
  c != '<' && c != '>'

/-- Generic arguments with the white space before them: `<…>` without inner brackets. -/
def readArguments? (text : List Char) : Option Lexeme :=
  match Text.skipBlanks text with
  | '<' :: cs =>
    match cs.dropWhile isArgumentChar with
    | '>' :: rest =>
      some ⟨text.takeWhile Text.isBlank ++ '<' :: cs.takeWhile isArgumentChar ++ ['>'], rest⟩
    | _ => none
  | _ => none

/-- The question mark at the start of a text, if there is one. -/
def readNullable (text : List Char) : Lexeme :=
  match text with
  | '?' :: rest => ⟨['?'], rest⟩
  | _ => ⟨[], text⟩

/-- The type token at the start of a text. -/
def readType? (text : List Char) : Option Lexeme := do
  let head ← readName? isTypeChar text
  let arguments := (readArguments? head.rest).getD ⟨[], head.rest⟩
  let mark := readNullable arguments.rest
  return ⟨head.token ++ arguments.token ++ mark.token, mark.rest⟩

/-- The text after the character `c`, which may have white space before it. -/
def readMark? (c : Char) (text : List Char) : Option (List Char) :=
  match Text.skipBlanks text with
  | [] => none
  | d :: rest => if d = c then some rest else none

end UseCases.Dart
