/-
Tables of characters.

A property of characters is stored as a list of runs. A run holds evenly spaced code
points, because letters that alternate between upper and lower case are two apart.
-/
namespace UseCases.Text

/-- The code points `first`, `first + step`, and so on up to `last`. -/
structure Run where
  first : Nat
  last : Nat
  step : Nat
deriving Repr, DecidableEq

/-- The run holds the code point. -/
def Run.covers (r : Run) (n : Nat) : Bool :=
  r.first ≤ n && n ≤ r.last && (n - r.first) % r.step == 0

/-- Some run of the table holds the character. -/
def inRuns (table : List Run) (c : Char) : Bool :=
  table.any fun r => r.covers c.toNat

/-- A run of characters that all move by the same distance under a case mapping. -/
structure Shift where
  run : Run
  offset : Int
deriving Repr, DecidableEq

/-- Where the table moves the character; a character in no run stays where it is. -/
def shifted (table : List Shift) (c : Char) : Char :=
  match table.find? fun s => s.run.covers c.toNat with
  | some s => Char.ofNat (c.toNat + s.offset).toNat
  | none => c

end UseCases.Text
