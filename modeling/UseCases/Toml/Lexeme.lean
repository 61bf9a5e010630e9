/-
TOML lexemes: white space, comments, strings and keys.

A line ends with a newline or with a carriage return and a newline; a carriage return alone
is an error everywhere. Every reader returns what it read and the rest of the text.
-/
import UseCases.Toml.Scalar

namespace UseCases.Toml

/-- White space inside a line. -/
def isSpace (c : Char) : Bool :=
  c == ' ' || c == '\t'

/-- A character that may stand in a comment or a string: no control character except the
tab. -/
def isTextChar (c : Char) : Bool :=
  c == '\t' || (' ' ≤ c && c ≤ '~') || 0x80 ≤ c.toNat

/-- The text without white space in front. -/
def skipSpaces (text : List Char) : List Char :=
  text.dropWhile isSpace

/-- The text after a newline; the end of the text counts as one. -/
def afterNewline? : List Char → Option (List Char)
  | [] => some []
  | '\n' :: cs | '\r' :: '\n' :: cs => some cs
  | _ => none

/-- The text after the present line, on which only a comment may still stand. -/
def endLine? (text : List Char) : Option (List Char) :=
  match skipSpaces text with
  | '#' :: cs => afterNewline? (cs.dropWhile isTextChar)
  | cs => afterNewline? cs

/-- The text without white space, newlines and comments in front. -/
def skipVoid? (inComment : Bool) : List Char → Option (List Char)
  | [] => some []
  | '\n' :: cs | '\r' :: '\n' :: cs => skipVoid? false cs
  | c :: cs =>
    if inComment then if isTextChar c then skipVoid? true cs else none
    else if isSpace c then skipVoid? false cs
    else if c = '#' then skipVoid? true cs
    else some (c :: cs)

/-! ### Strings -/

/-- The value of a hexadecimal digit. -/
def hexValue (c : Char) : Nat :=
  if c.isDigit then c.toNat - 0x30 else if c.toNat < 0x60 then c.toNat - 0x37 else c.toNat - 0x57

/-- The character whose code point the hexadecimal digits give. -/
def charOfHex? (digits : List Char) : Option Char :=
  let n := digits.foldl (fun n c => 16 * n + hexValue c) 0
  if digits.all isHexDigit && (n < 0xd800 || (0xdfff < n && n < 0x110000)) then
    some (Char.ofNat n)
  else none

/-- The character that a backslash and one more character stand for. -/
def charOfEscape? : Char → Option Char
  | 'b' => some '\x08'
  | 't' => some '\t'
  | 'n' => some '\n'
  | 'f' => some '\x0c'
  | 'r' => some '\r'
  | 'e' => some '\x1b'
  | '"' => some '"'
  | '\\' => some '\\'
  | _ => none

/-- What was read, with one character in front. -/
def prepend (c : Char) (read : Option (List Char × List Char)) : Option (List Char × List Char) :=
  read.map fun (text, rest) => (c :: text, rest)

/-- The string whose opening quote was just read. -/
def readBasic? : List Char → Option (List Char × List Char)
  | [] => none
  | '"' :: cs => some ([], cs)
  | '\\' :: 'x' :: a :: b :: cs =>
    (charOfHex? [a, b]).bind fun c => prepend c (readBasic? cs)
  | '\\' :: 'u' :: a :: b :: c :: d :: cs =>
    (charOfHex? [a, b, c, d]).bind fun c => prepend c (readBasic? cs)
  | '\\' :: 'U' :: a :: b :: c :: d :: e :: f :: g :: h :: cs =>
    (charOfHex? [a, b, c, d, e, f, g, h]).bind fun c => prepend c (readBasic? cs)
  | '\\' :: e :: cs => (charOfEscape? e).bind fun c => prepend c (readBasic? cs)
  | c :: cs => if isTextChar c then prepend c (readBasic? cs) else none

/-- Nothing but white space stands before the end of the line. -/
def isLineEnd (text : List Char) : Bool :=
  match skipSpaces text with
  | '\n' :: _ | '\r' :: '\n' :: _ => true
  | _ => false

/-- The string of several lines whose opening quotes were just read. After a backslash at
the end of a line, white space is skipped up to the next character of the string. -/
def readMultiline? (skipping : Bool) : List Char → Option (List Char × List Char)
  | [] => none
  | '"' :: '"' :: '"' :: '"' :: '"' :: cs => some (['"', '"'], cs)
  | '"' :: '"' :: '"' :: '"' :: cs => some (['"'], cs)
  | '"' :: '"' :: '"' :: cs => some ([], cs)
  | '\r' :: '\n' :: cs =>
    if skipping then readMultiline? true cs
    else prepend '\r' (prepend '\n' (readMultiline? false cs))
  | '\n' :: cs =>
    if skipping then readMultiline? true cs else prepend '\n' (readMultiline? false cs)
  | '\\' :: 'x' :: a :: b :: cs =>
    (charOfHex? [a, b]).bind fun c => prepend c (readMultiline? false cs)
  | '\\' :: 'u' :: a :: b :: c :: d :: cs =>
    (charOfHex? [a, b, c, d]).bind fun c => prepend c (readMultiline? false cs)
  | '\\' :: 'U' :: a :: b :: c :: d :: e :: f :: g :: h :: cs =>
    (charOfHex? [a, b, c, d, e, f, g, h]).bind fun c => prepend c (readMultiline? false cs)
  | '\\' :: cs =>
    if isLineEnd cs then readMultiline? true cs
    else
      match cs with
      | [] => none
      | e :: cs => (charOfEscape? e).bind fun c => prepend c (readMultiline? false cs)
  | c :: cs =>
    if skipping && isSpace c then readMultiline? true cs
    else if isTextChar c then prepend c (readMultiline? false cs)
    else none

/-- The literal string whose opening quote was just read. -/
def readLiteral? : List Char → Option (List Char × List Char)
  | [] => none
  | '\'' :: cs => some ([], cs)
  | c :: cs => if isTextChar c then prepend c (readLiteral? cs) else none

/-- The literal string of several lines whose opening quotes were just read. -/
def readMultilineLiteral? : List Char → Option (List Char × List Char)
  | [] => none
  | '\'' :: '\'' :: '\'' :: '\'' :: '\'' :: cs => some (['\'', '\''], cs)
  | '\'' :: '\'' :: '\'' :: '\'' :: cs => some (['\''], cs)
  | '\'' :: '\'' :: '\'' :: cs => some ([], cs)
  | '\r' :: '\n' :: cs => prepend '\r' (prepend '\n' (readMultilineLiteral? cs))
  | '\n' :: cs => prepend '\n' (readMultilineLiteral? cs)
  | c :: cs => if isTextChar c then prepend c (readMultilineLiteral? cs) else none

/-- The text without a newline in front. -/
def dropNewline : List Char → List Char
  | '\n' :: cs | '\r' :: '\n' :: cs => cs
  | cs => cs

/-- The string at the start of a text. -/
def readString? : List Char → Option (List Char × List Char)
  | '"' :: '"' :: '"' :: cs => readMultiline? false (dropNewline cs)
  | '"' :: cs => readBasic? cs
  | '\'' :: '\'' :: '\'' :: cs => readMultilineLiteral? (dropNewline cs)
  | '\'' :: cs => readLiteral? cs
  | _ => none

/-! ### Keys -/

/-- A character of a bare key. -/
def isKeyChar (c : Char) : Bool :=
  c.isAlphanum || c == '_' || c == '-'

/-- One part of a key: a string of one line, or bare. -/
def readKeyPart? (text : List Char) : Option (String × List Char) :=
  let part := match text with
    | '"' :: cs => readBasic? cs
    | '\'' :: cs => readLiteral? cs
    | cs =>
      let word := cs.takeWhile isKeyChar
      if word.isEmpty then none else some (word, cs.dropWhile isKeyChar)
  part.map fun (word, rest) => (String.ofList word, rest)

/-- A key: its parts with dots between them, of which there are at most `fuel`. White space
may surround every part. -/
def readKeyWithin? : (fuel : Nat) → List Char → Option (List String × List Char)
  | 0, _ => none
  | fuel + 1, text =>
    (readKeyPart? (skipSpaces text)).bind fun (part, rest) =>
      match skipSpaces rest with
      | '.' :: cs => (readKeyWithin? fuel cs).map fun (parts, rest) => (part :: parts, rest)
      | cs => some ([part], cs)

/-- The key at the start of a text, and the text after the white space that follows it. -/
def readKey? (text : List Char) : Option (List String × List Char) :=
  readKeyWithin? (text.length + 1) text

end UseCases.Toml
