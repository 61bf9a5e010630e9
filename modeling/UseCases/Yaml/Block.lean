/-
Block scalars of YAML: indented lines under `|` or `>`.

The indentation is given in the header or by the first line that is not empty. A literal
scalar keeps its breaks; a folded one joins lines that do not start with white space. What
happens to the breaks at the end is the chomping that the header asks for.
-/
import UseCases.Yaml.Cursor

namespace UseCases.Yaml

/-- What is kept of the breaks at the end of a block scalar. -/
inductive Chomping where
  /-- One break. -/
  | clip
  /-- None. -/
  | strip
  /-- All. -/
  | keep
deriving Repr, DecidableEq

/-- The header of a block scalar. -/
structure BlockHeader where
  chomping : Chomping
  /-- The indentation in addition to that of the surrounding block, if it is given. -/
  increment : Option Nat
deriving Repr, DecidableEq

/-- The chomping that a character asks for. -/
def chompingOf? : Char → Option Chomping
  | '+' => some .keep
  | '-' => some .strip
  | _ => none

/-- The indentation that a character asks for; zero is no indentation. -/
def incrementOf? (c : Char) : Option Nat :=
  if '1' ≤ c && c ≤ '9' then some (c.toNat - 0x30) else none

/-- The header of a block scalar and where it ends. -/
def readBlockHeader (p : Cursor) : BlockHeader × Cursor :=
  let chomping (q : Cursor) := q.rest.head?.bind chompingOf?
  let increment (q : Cursor) := q.rest.head?.bind incrementOf?
  match chomping p, increment p with
  | some c, _ =>
    match increment p.next with
    | some i => (⟨c, some i⟩, p.next.next)
    | none => (⟨c, none⟩, p.next)
  | none, some i =>
    match chomping p.next with
    | some c => (⟨c, some i⟩, p.next.next)
    | none => (⟨.clip, some i⟩, p.next)
  | none, none => (⟨.clip, none⟩, p)

/-- The position on the next line after a header, after which only a comment may stand. -/
def endHeader? (p : Cursor) : Option Cursor :=
  let p := p.skipWhile isBlank
  let p := if p.at? '#' then p.skipWhile fun _ => true else p
  match p.rest with
  | [] => some p
  | c :: _ => if isBreak c then some p.nextLine else none

/-- Empty lines before a line of a block scalar. -/
structure EmptyLines where
  /-- What their breaks become. -/
  text : List Char
  /-- The widest indentation among them and the line after them. -/
  width : Nat
  cursor : Cursor
deriving Repr, DecidableEq

/-- The position after at most `indent` columns of spaces; with `none`, after all of them. -/
def skipIndent (indent : Option Nat) (p : Cursor) : Cursor :=
  let spaces := (p.rest.takeWhile (· == ' ')).length
  match indent with
  | some n => p.skip (min spaces (n - p.column))
  | none => p.skip spaces

/-- Reads empty lines, at most `fuel` of them. A tab may not stand for indentation. -/
def readEmptyLines? (indent : Option Nat) :
    (fuel : Nat) → List Char → Nat → Cursor → Option EmptyLines
  | 0, text, width, p => some ⟨text, width, p⟩
  | fuel + 1, text, width, p =>
    let p := skipIndent indent p
    let width := max width p.column
    let misplaced := p.at? '\t' && indent.all fun n => p.column < n
    if misplaced then none
    else if p.atBreak then readEmptyLines? indent fuel (text ++ p.breakText) width p.nextLine
    else some ⟨text, width, p⟩

/-- A block scalar under construction. -/
structure BlockText where
  text : List Char
  /-- What the break after the last line becomes. -/
  lastBreak : List Char
  /-- What the breaks of the empty lines after it become. -/
  emptyLines : List Char
  /-- The last line starts with white space. -/
  indented : Bool
deriving Repr, DecidableEq

/-- The text before the next line of a block scalar, which starts with white space or not. -/
def BlockText.joined (b : BlockText) (literal indented : Bool) : List Char :=
  let folds := !literal && b.lastBreak.head? == some '\n' && !b.indented && !indented
  let gap := if folds then if b.emptyLines.isEmpty then [' '] else [] else b.lastBreak
  b.text ++ gap ++ b.emptyLines

/-- Reads the lines of a block scalar, at most `fuel` of them, that start at column `indent`. -/
def readBlockLines? (literal : Bool) (indent : Nat) :
    (fuel : Nat) → BlockText → Cursor → Option (BlockText × Cursor)
  | 0, b, p => some (b, p)
  | fuel + 1, b, p =>
    if p.column != indent || p.rest.isEmpty then some (b, p)
    else do
      let indented := p.atBlank
      let line := p.rest.takeWhile fun c => !isBreak c
      let p := p.skip line.length
      let text := b.joined literal indented ++ line
      let lastBreak := p.breakText
      let empty ← readEmptyLines? (some indent) (p.rest.length + 1) [] 0 p.nextLine
      readBlockLines? literal indent fuel ⟨text, lastBreak, empty.text, indented⟩ empty.cursor

/-- The block scalar whose indicator was just read. `parent` is the column that the block
around it is indented to, if there is one. -/
def readBlock? (literal : Bool) (parent : Option Nat) (p : Cursor) :
    Option (List Char × Cursor) := do
  let (header, p) := readBlockHeader p
  let p ← endHeader? p
  let given := header.increment.map fun i => parent.getD 0 + i
  let empty ← readEmptyLines? given (p.rest.length + 1) [] 0 p
  let least := match parent with
    | some column => column + 1
    | none => 0
  let indent := given.getD (max 1 (max least empty.width))
  let (b, p) ← readBlockLines? literal indent (p.rest.length + 1) ⟨[], [], empty.text, false⟩
    empty.cursor
  let ending := match header.chomping with
    | .strip => []
    | .clip => b.lastBreak
    | .keep => b.lastBreak ++ b.emptyLines
  return (b.text ++ ending, p)

end UseCases.Yaml
