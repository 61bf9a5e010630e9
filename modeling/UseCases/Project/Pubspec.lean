/-
The package name in a pubspec.

A pubspec is a YAML mapping, and the package is the scalar under its key `name`. Null in any
of its spellings is no name. Two such keys, a name that is a collection, or a document that
is no mapping make the pubspec unusable.
-/
import UseCases.Text.Blank
import UseCases.Yaml.Node

namespace UseCases.Project

open Yaml

/-- The tag of null. -/
def nullTag : String := coreTag ++ "null"

/-- A spelling of null other than the empty text. -/
def isNullWord (text : String) : Bool :=
  text == "null" || text == "Null" || text == "NULL" || text == "~"

/-- The text that a node gives to a name, or `none` inside when it is null. A plain scalar is
taken as it is written, whatever else it might stand for. -/
def scalarName? : Node → Option (Option String)
  | .scalar text false _ => some (some text)
  | .scalar text true (some tag) =>
    if tag != nullTag then some (some text) else if isNullWord text then some none else none
  | .scalar text true none => some (if text.isEmpty || isNullWord text then none else some text)
  | .sequence _ | .mapping _ => none

/-- The key of a pubspec, which has to be a scalar. -/
def key? : Node → Option String
  | .scalar text _ _ => some text
  | .sequence _ | .mapping _ => none

/-- The values of all keys `name`, if every key is a scalar. -/
def namesOf? (pairs : List (Node × Node)) : Option (List Node) := do
  let keyed ← pairs.mapM fun (key, value) => (key? key).map fun text => (text, value)
  return (keyed.filter fun (key, _) => key == "name").map Prod.snd

/-- The name that a document gives. A document of nothing gives none. -/
def documentName? : Node → Option (Option String)
  | .mapping pairs =>
    match namesOf? pairs with
    | some [] => some none
    | some [node] => scalarName? node
    | _ => none
  | .scalar "" true _ => some none
  | .scalar _ _ _ | .sequence _ => none

/-- The package name in the text of a pubspec, or `none` inside when it gives none. A name of
white space is none. -/
def pubspecName? (text : String) : Option (Option String) := do
  match ← Yaml.parse? text with
  | none => return none
  | some node =>
    let name ← documentName? node
    return name.filter fun n => !(Text.trim n.toList).isEmpty

end UseCases.Project
