/-
Looking up paths in a tree.

A path is followed piece by piece from a directory. Symbolic links on the way are followed,
and a link at the end depending on what the path is looked up for; after forty links the
search is given up. A path whose last name does not exist in an existing directory is told
apart from other failures, because a file or directory can be made there.
-/
import UseCases.Files.OsError
import UseCases.Files.Path
import UseCases.Files.Tree
import UseCases.Text.Utf8

namespace UseCases.Files

/-- What a path is looked up for. -/
inductive Purpose where
  /-- For the entry that its last name stands for, be it a link. -/
  | entry
  /-- For what is there when a link at its end is followed as well. -/
  | target
  /-- For a file to write, which may be at the end of links. A slash at the end of the path,
  or of the path in a link at its end, asks for a directory. -/
  | output
deriving Repr, DecidableEq

/-- Where a path leads. -/
inductive Lookup where
  /-- To an entry. -/
  | found (location : Location)
  /-- To no entry, in a directory that exists. -/
  | absent (directory : Location) (name : String)
  | failed (error : OsError)
deriving Repr, DecidableEq

/-- Where some pieces of a path lead without following a link. -/
inductive Stretch where
  | ended (lookup : Lookup)
  /-- To a link, and these pieces are left. -/
  | link (directory : Location) (target : String) (rest : List String)
deriving Repr, DecidableEq

/-- The bytes that a name may have. -/
def maxName : Nat := 255

/-- The bytes that a path has fewer of. -/
def maxPath : Nat := 4096

/-- The links that are followed for one path. -/
def maxLinks : Nat := 40

/-- Only slashes are left of a path. -/
def isSlash (rest : List String) : Bool :=
  !rest.isEmpty && rest.all (· == "")

/-- Follows the pieces of a path from a directory, up to the first link. -/
def stretch (t : Tree) (purpose : Purpose) : (directory : Location) → List String → Stretch
  | directory, [] => .ended (.found directory)
  | directory, name :: rest =>
    if name = "" ∨ name = "." then stretch t purpose directory rest
    else if name = ".." then stretch t purpose directory.dropLast rest
    else if purpose = .output ∧ isSlash rest then .ended (.failed .isADirectory)
    else if maxName < Text.utf8Length name.toList then .ended (.failed .nameTooLong)
    else
      let location := directory ++ [name]
      match t.find? location with
      | none =>
        if rest.isEmpty || isSlash rest then .ended (.absent directory name)
        else .ended (.failed .notFound)
      | some .directory => stretch t purpose location rest
      | some (.file _) =>
        if rest.isEmpty then .ended (.found location) else .ended (.failed .notADirectory)
      | some (.link target) =>
        if rest.isEmpty && purpose == .entry then .ended (.found location)
        else .link directory target rest

/-- The pieces of a path as texts. -/
def pathPieces (p : Path) : List String :=
  p.pieces.map String.ofList

/-- Where a path starts. -/
def startOf (cwd : Location) (p : Path) : Location :=
  if p.isAbsolute then [] else cwd

/-- Follows pieces of a path and at most `links` links. -/
def followLinks (t : Tree) (purpose : Purpose) (links : Nat) (directory : Location)
    (pieces : List String) : Lookup :=
  match stretch t purpose directory pieces with
  | .ended lookup => lookup
  | .link directory target rest =>
    match links with
    | 0 => .failed .tooManyLinks
    | links + 1 => followLinks t purpose links (startOf directory target) (pathPieces target ++ rest)

/-- Where a path leads from a working directory. -/
def lookup (t : Tree) (cwd : Location) (purpose : Purpose) (p : Path) : Lookup :=
  if p.toList.contains '\x00' then .failed .nulInPath
  else if p.isEmpty then .failed .notFound
  else if maxPath ≤ Text.utf8Length p.toList then .failed .nameTooLong
  else followLinks t purpose maxLinks (startOf cwd p) (pathPieces p)

end UseCases.Files
