/-
JSON texts.

The members of an object keep their order. Texts are escaped only where JSON demands it, and
a value is laid out with one member or item to a line.
-/
import UseCases.Text.Search

namespace UseCases

/-- A JSON value without fractions. -/
inductive Json where
  | null
  | number (value : Nat)
  | text (value : String)
  | array (items : List Json)
  | object (members : List (String × Json))
deriving Repr

namespace Json

/-- A hexadecimal digit. -/
def hexDigit (n : Nat) : Char :=
  if n < 10 then Char.ofNat (0x30 + n) else Char.ofNat (0x57 + n)

/-- A character as it stands between quotes. -/
def escape (c : Char) : List Char :=
  match c with
  | '"' => ['\\', '"']
  | '\\' => ['\\', '\\']
  | '\n' => ['\\', 'n']
  | '\r' => ['\\', 'r']
  | '\t' => ['\\', 't']
  | '\x08' => ['\\', 'b']
  | '\x0c' => ['\\', 'f']
  | _ =>
    if c.toNat < 0x20 then
      ['\\', 'u', '0', '0', hexDigit (c.toNat / 16), hexDigit (c.toNat % 16)]
    else [c]

/-- A text in quotes. -/
def quoted (text : String) : String :=
  String.ofList ('"' :: text.toList.flatMap escape ++ ['"'])

/-- The start of a line at some level. -/
def lineStart : (level : Nat) → String
  | 0 => "\n"
  | level + 1 => lineStart level ++ "  "

mutual

/-- The value laid out at some level. -/
def print (level : Nat) : Json → String
  | .null => "null"
  | .number value => toString value
  | .text value => quoted value
  | .array [] => "[]"
  | .array (item :: items) =>
    "[" ++ lineStart (level + 1) ++ print (level + 1) item ++ printItems level items
  | .object [] => "\x7b\x7d"
  | .object ((key, value) :: members) =>
    "\x7b" ++ lineStart (level + 1) ++ quoted key ++ ": " ++ print (level + 1) value ++
      printMembers level members

/-- The items after the first one, and the closing bracket. -/
def printItems (level : Nat) : List Json → String
  | [] => lineStart level ++ "]"
  | item :: items =>
    "," ++ lineStart (level + 1) ++ print (level + 1) item ++ printItems level items

/-- The members after the first one, and the closing brace. -/
def printMembers (level : Nat) : List (String × Json) → String
  | [] => lineStart level ++ "\x7d"
  | (key, value) :: members =>
    "," ++ lineStart (level + 1) ++ quoted key ++ ": " ++ print (level + 1) value ++
      printMembers level members

end

/-- The text of a value. -/
def render (value : Json) : String :=
  value.print 0

end Json

end UseCases
