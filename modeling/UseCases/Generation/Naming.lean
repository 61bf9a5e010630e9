/-
Names of generated types, fields and files.

The conversions change the case of single characters and add underscores; they do not make
an identifier out of a text that is none.
-/
import UseCases.Text.Case

namespace UseCases.Generation

open Text

/-! ### Case conversions -/

/-- The text with its first character in upper case. -/
def pascalCase (text : String) : String :=
  match text.toList with
  | [] => ""
  | c :: cs => String.ofList (upper c ++ cs)

/-- The text with its first character in lower case. -/
def camelCase (text : String) : String :=
  match text.toList with
  | [] => ""
  | c :: cs => String.ofList (lower c ++ cs)

/-- The characters in lower case, with an underscore between a lower-case character and an
upper-case one after it. `afterLower` tells whether a lower-case character stands before. -/
def snakeFrom (afterLower : Bool) : List Char → List Char
  | [] => []
  | c :: cs =>
    let gap := if isUpper c && afterLower then ['_'] else []
    gap ++ lower c ++ snakeFrom (isLower c) cs

/-- The text in snake case. Runs of upper-case characters stay together. -/
def snakeCase (text : String) : String :=
  String.ofList (snakeFrom false text.toList)

/-! ### Names -/

/-- The class of the use case for a method. -/
def useCaseType (method : String) : String :=
  pascalCase method ++ "UseCase"

/-- The class that holds the arguments of that use case. -/
def paramsType (method : String) : String :=
  pascalCase method ++ "Params"

/-- The field that holds the repository. -/
def repositoryField (repository : String) : String :=
  camelCase repository

/-- The file of a generated class. -/
def fileName (type : String) : String :=
  snakeCase type ++ ".dart"

end UseCases.Generation
