/-
Sizes of texts in UTF-8.
-/
import UseCases.Text.Search

namespace UseCases.Text

/-- How many bytes the text has in UTF-8. -/
def utf8Length : List Char → Nat
  | [] => 0
  | c :: cs => c.utf8Size + utf8Length cs

/-- The lines of a text, each with the newline that ends it. A text that ends with a newline
has no empty line after it. -/
def linesInclusive : List Char → List (List Char)
  | [] => []
  | c :: cs =>
    if c = '\n' then [c] :: linesInclusive cs
    else
      match linesInclusive cs with
      | [] => [[c]]
      | line :: rest => (c :: line) :: rest

/-- The text before the first `pattern` in it. -/
def beforeFirst? (pattern : List Char) : List Char → Option (List Char)
  | [] => if pattern.isEmpty then some [] else none
  | c :: cs =>
    if pattern.isPrefixOf (c :: cs) then some []
    else (beforeFirst? pattern cs).map (c :: ·)

end UseCases.Text
