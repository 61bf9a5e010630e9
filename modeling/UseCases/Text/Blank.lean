/-
White space, and texts without it at their ends.

White space is the Unicode property `White_Space`: the twenty-five characters below,
which include the no-break spaces and the line separators and leave out the zero-width
space and the byte order mark.

Text is scanned as a list of characters throughout the library, so a position is a way of
writing a list as `before ++ after` and no offset is ever computed.
-/
namespace UseCases.Text

/-- A white space character. -/
def isBlank (c : Char) : Bool :=
  let n := c.toNat
  (0x09 ≤ n && n ≤ 0x0d) || n == 0x20 || n == 0x85 || n == 0xa0 || n == 0x1680 ||
    (0x2000 ≤ n && n ≤ 0x200a) || n == 0x2028 || n == 0x2029 || n == 0x202f || n == 0x205f ||
    n == 0x3000

/-- The text from its first character that is not white space. -/
def skipBlanks (cs : List Char) : List Char :=
  cs.dropWhile isBlank

/-- The text up to its last character that is not white space. -/
def trimRight (cs : List Char) : List Char :=
  (cs.reverse.dropWhile isBlank).reverse

/-- The text without white space at either end. -/
def trim (cs : List Char) : List Char :=
  trimRight (skipBlanks cs)

/-- White space is required here: the text after it, or nothing when there is none. -/
def skipSomeBlanks? : List Char → Option (List Char)
  | [] => none
  | c :: cs => if isBlank c then some (skipBlanks cs) else none

end UseCases.Text
