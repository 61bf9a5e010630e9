/-
Layout of generated code.

Code is described by fragments (lines, blank lines, blocks and sequences of them) that know
nothing of their indentation. A page lays them out: it holds the text written so far and
the level at which the next line is indented.
-/
namespace UseCases.Dart

/-- How one level of nesting is indented. -/
inductive Indent where
  | spaces (width : Nat)
  | tab
deriving Repr, DecidableEq

namespace Indent

/-- The indentation that Dart code has by convention. -/
def standard : Indent := .spaces 2

/-- One level of indentation. Two, four and eight spaces are supported; any other width is
laid out with two. -/
def unit : Indent → String
  | .spaces 4 => "    "
  | .spaces 8 => "        "
  | .spaces _ => "  "
  | .tab => "\t"

end Indent

/-- A piece of code without its indentation. -/
inductive Fragment where
  | line (text : String)
  | blank
  /-- A header line, a body one level deeper, and a closing line if there is one. -/
  | block (header : String) (body : List Fragment) (close : Option String)
  | sequence (fragments : List Fragment)
deriving Repr

/-- A block that a brace closes. -/
def Fragment.braced (header : String) (body : List Fragment) : Fragment :=
  .block header body (some "\x7d")

/-- The text written so far, and how the next line is indented. -/
structure Page where
  indent : Indent
  level : Nat
  text : String
deriving Repr, DecidableEq

namespace Page

/-- The page before anything is written. -/
def empty (indent : Indent) : Page := ⟨indent, 0, ""⟩

/-- The indentation of a line at some level. -/
def indentation (indent : Indent) : Nat → String
  | 0 => ""
  | level + 1 => indent.unit ++ indentation indent level

/-- Writes a line at the present level. -/
def line (p : Page) (text : String) : Page :=
  { p with text := p.text ++ (indentation p.indent p.level ++ text ++ "\n") }

/-- Writes an empty line, which is not indented. -/
def blank (p : Page) : Page :=
  { p with text := p.text ++ "\n" }

/-- Goes one level deeper. -/
def deeper (p : Page) : Page :=
  { p with level := p.level + 1 }

/-- Goes back one level, if there is one. -/
def shallower (p : Page) : Page :=
  { p with level := p.level - 1 }

mutual

/-- Writes a fragment. -/
def fragment (p : Page) : Fragment → Page
  | .line text => p.line text
  | .blank => p.blank
  | .block header body close =>
    let p := (((p.line header).deeper).fragments body).shallower
    match close with
    | some text => p.line text
    | none => p
  | .sequence inner => p.fragments inner

/-- Writes fragments one after the other. -/
def fragments (p : Page) : List Fragment → Page
  | [] => p
  | f :: fs => (p.fragment f).fragments fs

end

end Page

/-- The text of some fragments at the outermost level. -/
def layOut (indent : Indent) (fragments : List Fragment) : String :=
  ((Page.empty indent).fragments fragments).text

end UseCases.Dart
