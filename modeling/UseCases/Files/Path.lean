/-
Paths.

A path is a text with slashes between its pieces. Empty pieces and `.` pieces name nothing,
except that a leading `.` is a component of its own. The parent of a path keeps its spelling
up to the last component it keeps.
-/
import UseCases.Text.Search

namespace UseCases.Files

/-- The path of a file or directory, as it is written. -/
abbrev Path := String

namespace Path

/-- The path starts at the root. -/
def isAbsolute (p : Path) : Bool :=
  p.toList.head? == some '/'

/-- The texts between the slashes of a path. -/
def pieces (p : Path) : List (List Char) :=
  Text.splitAt (· == '/') p.toList

/-- A piece that is a component, when `before` are the pieces before it. -/
def isComponent (piece : List Char) (before : List (List Char)) : Bool :=
  !piece.isEmpty && (piece != ['.'] || before.isEmpty)

/-- Reversed pieces from their first component on. -/
def fromComponent : (reversed : List (List Char)) → List (List Char)
  | [] => []
  | piece :: before =>
    if isComponent piece before then piece :: before else fromComponent before

/-- The path that is written with these pieces. -/
def ofPieces (absolute : Bool) (pieces : List (List Char)) : Path :=
  if pieces.isEmpty then if absolute then "/" else ""
  else Text.join "/" (pieces.map String.ofList)

/-- The path without its last component, if it has one. -/
def parent? (p : Path) : Option Path :=
  match fromComponent p.pieces.reverse with
  | [] => none
  | _ :: before => some (ofPieces p.isAbsolute (fromComponent before).reverse)

/-- The last component of the path, if it is a name. -/
def fileName? (p : Path) : Option String :=
  match fromComponent p.pieces.reverse with
  | [] => none
  | piece :: _ =>
    if piece == ['.'] || piece == ['.', '.'] then none else some (String.ofList piece)

/-- A path inside a directory. An absolute path stays as it is. -/
def join (directory path : Path) : Path :=
  if path.isAbsolute then path
  else if directory.isEmpty || Text.endsWith ['/'] directory.toList then directory ++ path
  else directory ++ "/" ++ path

/-- The path, its parent, the parent's parent and so on, at most `fuel` of them. -/
def lineage : (fuel : Nat) → Path → List Path
  | 0, _ => []
  | fuel + 1, p =>
    if p.isEmpty then []
    else
      match p.parent? with
      | some parent => p :: lineage fuel parent
      | none => [p]

/-- The path and its ancestors, innermost first, as far as they are not empty. -/
def ancestors (p : Path) : List Path :=
  lineage (p.toList.length + 1) p

end Path

end UseCases.Files
