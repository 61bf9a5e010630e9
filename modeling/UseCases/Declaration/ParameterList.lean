/-
Parameter lists.

The text between a declaration's parentheses is cut at its first `[` or brace at depth
zero. Before it stand the positional parameters; the group inside it holds the optional
ones. Every entry is `<type> <name>` with an optional default, and an entry of any other
form is rejected as it stands.
-/
import UseCases.Dart.Nesting
import UseCases.Dart.Token
import UseCases.Declaration.Method
import UseCases.Text.Search

namespace UseCases.Declaration

open Dart Text

/-- The parts of a parameter list. -/
structure ParameterText where
  positional : List Char
  /-- The text inside the group and the kind of parameter that the group declares. -/
  group : Option (List Char × ParameterKind)
deriving Repr, DecidableEq

/-- The bracket that closes a group opened by `opening`, and the kind it declares. -/
def groupOf (opening : Char) : Char × ParameterKind :=
  if opening = '\x7b' then ('\x7d', .named) else (']', .optionalPositional)

/-- The parts of a parameter list. A group that is not closed runs to the end. -/
def ParameterText.ofList (text : List Char) : ParameterText :=
  match cut? (fun c => c == '\x7b' || c == '[') text with
  | none => ⟨text, none⟩
  | some cut =>
    let (closing, kind) := groupOf cut.mark
    let inside := match enclosed? cut.mark closing cut.after with
      | some enclosed => enclosed.inside
      | none => cut.after
    ⟨cut.before, some (inside, kind)⟩

/-! ### Entries -/

/-- The text after a keyword and the white space that has to follow it. -/
def afterKeyword? (keyword : String) (text : List Char) : Option (List Char) :=
  (after? keyword.toList text).bind skipSomeBlanks?

/-- The declaration without a leading `required`, and the kind it has then. Only a named
parameter can be required. -/
def takeRequired (kind : ParameterKind) (declaration : List Char) : List Char × ParameterKind :=
  if kind = .named then
    match afterKeyword? "required" declaration with
    | some rest => (rest, .requiredNamed)
    | none => (declaration, kind)
  else (declaration, kind)

/-- The declaration without a leading `final` or `covariant`. -/
def dropModifier (declaration : List Char) : List Char :=
  ((afterKeyword? "final" declaration).or (afterKeyword? "covariant" declaration)).getD declaration

/-- A declaration that is a type token, white space and an identifier, and nothing more. -/
def typeAndName? (declaration : List Char) : Option (List Char × List Char) := do
  let type ← readType? declaration
  let text ← skipSomeBlanks? type.rest
  let name ← readIdentifier? text
  if name.rest.isEmpty then some (type.token, name.token) else none

/-- An entry cut at its first `=` at depth zero. -/
def cutDefault (entry : List Char) : List Char × Option (List Char) :=
  match cut? (· == '=') entry with
  | some cut => (trim cut.before, some (trim cut.after))
  | none => (entry, none)

/-- The parameter that an entry declares. An empty default counts as none. -/
def readParameter? (kind : ParameterKind) (entry : List Char) : Option Parameter := do
  let (declaration, value) := cutDefault entry
  let (declaration, kind) := takeRequired kind declaration
  let (type, name) ← typeAndName? (dropModifier (trim declaration))
  let default := value.filter fun v => !v.isEmpty
  return ⟨String.ofList type, String.ofList name, kind, default.map String.ofList⟩

/-- What became of one entry of a parameter list. -/
inductive Entry where
  | accepted (parameter : Parameter)
  | rejected (text : List Char)
deriving Repr, DecidableEq

/-- The entry as a parameter of the given kind. -/
def Entry.read (kind : ParameterKind) (entry : List Char) : Entry :=
  match readParameter? kind entry with
  | some parameter => .accepted parameter
  | none => .rejected entry

/-- The entries of one part of a parameter list. -/
def readEntries (kind : ParameterKind) (text : List Char) : List Entry :=
  (splitTopLevel ',' text).map (Entry.read kind)

/-- The entries of a parameter list, in the order of the text. -/
def entries (text : List Char) : List Entry :=
  let parts := ParameterText.ofList text
  let grouped := match parts.group with
    | some (inside, kind) => readEntries kind inside
    | none => []
  readEntries .positional parts.positional ++ grouped

/-- The parameters among some entries. -/
def accepted (entries : List Entry) : List Parameter :=
  entries.filterMap fun
    | .accepted parameter => some parameter
    | .rejected _ => none

/-- The rejected texts among some entries. -/
def rejected (entries : List Entry) : List String :=
  entries.filterMap fun
    | .accepted _ => none
    | .rejected text => some (String.ofList text)

end UseCases.Declaration
