/-
Worlds: a file tree with a working directory and a log, as a host for the program.

The working directory of a world is there, and no operation takes it away. Every operation
has a plain function on trees behind it, and a session is a computation on a world.
-/
import UseCases.Files.Host
import UseCases.Files.Lookup

namespace UseCases.Files

/-- A file tree, the working directory in it, and the log so far. -/
structure World where
  tree : Tree
  cwd : Location
  log : List LogRecord
  isDirectory_cwd : tree.isDirectory cwd = true

namespace World

/-- The world with one more entry in a directory, if the tree can have it. -/
def add (w : World) (directory : Location) (name : String) (entry : Entry) : World :=
  { w with
    tree := w.tree.add directory name entry
    isDirectory_cwd := Tree.isDirectory_add w.isDirectory_cwd directory name entry }

/-- The world with new content in the file at a location, if there is one. -/
def setFile (w : World) (location : Location) (content : ByteArray) : World :=
  { w with
    tree := w.tree.setFile location content
    isDirectory_cwd := Tree.isDirectory_setFile w.isDirectory_cwd location content }

@[simp]
theorem tree_add (w : World) (directory : Location) (name : String) (entry : Entry) :
    (w.add directory name entry).tree = w.tree.add directory name entry := rfl

@[simp]
theorem tree_setFile (w : World) (location : Location) (content : ByteArray) :
    (w.setFile location content).tree = w.tree.setFile location content := rfl

/-- The world with another working directory, if that is one. -/
def enter (w : World) (location : Location) : World :=
  if h : w.tree.isDirectory location = true then
    { w with cwd := location, isDirectory_cwd := h }
  else w

/-- A world that holds nothing but its working directory. -/
def empty (name : String) : World :=
  let root : World := ⟨Tree.empty, [], [], rfl⟩
  (root.add [] name .directory).enter [name]

/-- Where a path leads, with links followed to the end. -/
def target (w : World) (p : Path) : Lookup :=
  lookup w.tree w.cwd .target p

/-- What there is at a path. -/
def kind? (w : World) (p : Path) : Option Kind :=
  match w.target p with
  | .found location =>
    match w.tree.find? location with
    | some (.file _) => some .file
    | some .directory => some .directory
    | _ => none
  | _ => none

/-- The content of a file. -/
def read (w : World) (p : Path) : Except OsError ByteArray :=
  match w.target p with
  | .failed e => .error e
  | .absent _ _ => .error .notFound
  | .found location =>
    match w.tree.find? location with
    | some (.file content) => .ok content
    | _ => .error .isADirectory

/-- The world with one more directory. -/
def makeDirectory (w : World) (p : Path) : Except OsError World :=
  match lookup w.tree w.cwd .entry p with
  | .failed e => .error e
  | .found _ => .error .alreadyExists
  | .absent directory name => .ok (w.add directory name .directory)

/-- The world with a file written. -/
def write (w : World) (p : Path) (content : ByteArray) : Except OsError World :=
  match lookup w.tree w.cwd .output p with
  | .failed e => .error e
  | .absent directory name => .ok (w.add directory name (.file content))
  | .found location =>
    match w.tree.find? location with
    | some (.file _) => .ok (w.setFile location content)
    | _ => .error .isADirectory

/-- The paths of the regular files below a directory. -/
def walk (w : World) (p : Path) : Except OsError (List Path) :=
  match w.target p with
  | .failed e => .error e
  | .absent _ _ => .error .notFound
  | .found directory =>
    .ok ((w.tree.filesBelow directory).map fun names => names.foldl Path.join p)

/-- The world with one more symbolic link. -/
def makeLink (w : World) (p target : Path) : Except OsError World :=
  match lookup w.tree w.cwd .entry p with
  | .failed e => .error e
  | .found _ => .error .alreadyExists
  | .absent directory name => .ok (w.add directory name (.link target))

/-- The world without a file or link. -/
def removeFile (w : World) (p : Path) : Except OsError World :=
  match lookup w.tree w.cwd .entry p with
  | .failed e => .error e
  | .absent _ _ => .error .notFound
  | .found location =>
    if w.tree.isDirectory location then .error .isADirectory
    else
      .ok { w with
        tree := w.tree.removeFile location
        isDirectory_cwd := Tree.isDirectory_removeFile w.isDirectory_cwd location }

/-- The world with one more log record. -/
def addLog (w : World) (record : LogRecord) : World :=
  { w with log := w.log ++ [record] }

end World

/-- A computation on a world. -/
abbrev Session := StateM World

/-- Replaces the world by what an operation makes of it; an operation that fails leaves it
as it is. -/
def changeWorld (act : World → Except OsError World) : Session (Except OsError Unit) := fun w =>
  match act w with
  | .ok after => (.ok (), after)
  | .error e => (.error e, w)

instance : Host Session where
  read p w := (w.read p, w)
  kind? p w := (w.kind? p, w)
  makeDirectory p := changeWorld fun w => w.makeDirectory p
  write p content := changeWorld fun w => w.write p content
  walk p w := (w.walk p, w)
  log record w := ((), w.addLog record)

end UseCases.Files
