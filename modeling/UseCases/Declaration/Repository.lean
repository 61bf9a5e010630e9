/-
The repository class of a declaration file.

A class declaration starts its line, may be `abstract` and may be an `interface`, `base` or
`sealed` class; white space between these words may contain newlines. A repository's name
ends in `Repository` and has something before it. The name is the longest such start of the
word that is written, provided that no word character follows it.
-/
import UseCases.Dart.Comment
import UseCases.Dart.Token
import UseCases.Declaration.ParameterList
import UseCases.Text.Search

namespace UseCases.Declaration

open Dart Text

/-- What the name of a repository class ends in. -/
def repositorySuffix : List Char := "Repository".toList

/-- `name` can be a repository name when `rest` follows it: it ends in the suffix after at
least one character, and the word ends with it. -/
def isRepositoryName (name rest : List Char) : Bool :=
  endsWith repositorySuffix name && repositorySuffix.length < name.length &&
    match rest with
    | [] => true
    | c :: _ => !isWord c

/-- The longest repository name among the starts of `name ++ rest` that are no longer than
`name`. The characters of the name are given in reverse. -/
def shortenName? : (reversed rest : List Char) → Option (List Char)
  | [], _ => none
  | c :: cs, rest =>
    if isRepositoryName (c :: cs).reverse rest then some (c :: cs).reverse
    else shortenName? cs (c :: rest)

/-- The text without a leading keyword, or as it is when the keyword does not lead. -/
def dropKeyword (keyword : String) (text : List Char) : List Char :=
  (afterKeyword? keyword text).getD text

/-- The text without a leading class modifier. -/
def dropClassModifier (text : List Char) : List Char :=
  ((afterKeyword? "interface" text).or
    ((afterKeyword? "base" text).or (afterKeyword? "sealed" text))).getD text

/-- The name of the repository class declared at the start of a line. -/
def readRepository? (text : List Char) : Option (List Char) := do
  let text := dropClassModifier (dropKeyword "abstract" (skipBlanks text))
  let text ← afterKeyword? "class" text
  let name ← readIdentifier? text
  shortenName? name.token.reverse name.rest

/-- The first repository class declared in the text, which stands at the start of a line
when `lineStart` holds. -/
def firstRepository? (lineStart : Bool) : List Char → Option (List Char)
  | [] => none
  | c :: cs =>
    let here := if lineStart then readRepository? (c :: cs) else none
    here.or (firstRepository? (c == '\n') cs)

/-- The name of the first repository class that a source declares outside its comments. -/
def repositoryName? (source : String) : Option String :=
  (firstRepository? true (stripComments source.toList)).map String.ofList

end UseCases.Declaration
