/-
Labels: where in a settings file a wrong value stands.

The file is searched as text for the first line that starts with the key and an equals
sign. The value is what stands after that sign, without white space around it; if there is
nothing, the key itself is labelled. Positions are counted in bytes of UTF-8.
-/
import UseCases.Text.Blank
import UseCases.Text.Utf8

namespace UseCases.Settings

open Text

/-- A range of bytes. -/
structure Span where
  offset : Nat
  length : Nat
deriving Repr, DecidableEq

/-- The value that a line gives to a key, if the line starts with the key and an equals
sign. -/
def valueOn? (key line : List Char) : Option (List Char) := do
  let rest ← after? key (skipBlanks line)
  let value ← after? ['='] (skipBlanks rest)
  return trim value

/-- What a line at some offset labels for a key: the first occurrence of the value in the
line, or the key when the value is empty. -/
def spanOn? (key line : List Char) (offset : Nat) : Option Span :=
  (valueOn? key line).map fun value =>
    if value.isEmpty then
      ⟨offset + utf8Length (line.takeWhile isBlank), utf8Length key⟩
    else
      ⟨offset + utf8Length ((beforeFirst? value line).getD []), utf8Length value⟩

/-- The label for a key among lines that start at some offset. -/
def spanIn? (key : List Char) (offset : Nat) : List (List Char) → Option Span
  | [] => none
  | line :: rest => (spanOn? key line offset).or (spanIn? key (offset + utf8Length line) rest)

/-- The label for a key in a settings file. -/
def valueSpan? (text key : String) : Option Span :=
  spanIn? key.toList 0 (linesInclusive text.toList)

end UseCases.Settings
