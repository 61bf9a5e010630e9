/-
Flow scalars of YAML: plain and quoted ones, which may go on over several lines.

Lines are folded: a single break becomes a space, and of several breaks the first is lost.
The white space around a break is lost as well.
-/
import UseCases.Yaml.Cursor

namespace UseCases.Yaml

/-! ### The gap between two words -/

/-- White space and breaks between two words of a scalar. -/
structure Gap where
  /-- White space before the first break. -/
  blanks : List Char
  /-- What the first break becomes. -/
  first : List Char
  /-- What the other breaks become. -/
  more : List Char
  /-- There was a break. -/
  broken : Bool
deriving Repr, DecidableEq

namespace Gap

/-- Nothing between two words. -/
def none : Gap := ⟨[], [], [], false⟩

/-- A break that is escaped and becomes nothing. -/
def escapedBreak : Gap := ⟨[], [], [], true⟩

/-- What the gap becomes in the scalar. -/
def text (g : Gap) : List Char :=
  if !g.broken then g.blanks
  else if g.first.head? == some '\n' then if g.more.isEmpty then [' '] else g.more
  else g.first ++ g.more

/-- The gap with one more break. -/
def addBreak (g : Gap) (text : List Char) : Gap :=
  if g.broken then { g with more := g.more ++ text }
  else { g with blanks := [], first := text, broken := true }

/-- The gap with one more blank, which is lost after a break. -/
def addBlank (g : Gap) (c : Char) : Gap :=
  if g.broken then g else { g with blanks := g.blanks ++ [c] }

end Gap

/-- Reads at most `fuel` characters of a gap. A tab may not stand where `indent` columns of
indentation are expected. -/
def readGap? (indent : Nat) : (fuel : Nat) → Gap → Cursor → Option (Gap × Cursor)
  | 0, gap, p => some (gap, p)
  | fuel + 1, gap, p =>
    match p.rest with
    | [] => some (gap, p)
    | c :: _ =>
      if isBlank c then
        if gap.broken && p.column < indent && c == '\t' then none
        else readGap? indent fuel (gap.addBlank c) p.next
      else if isBreak c then readGap? indent fuel (gap.addBreak p.breakText) p.nextLine
      else some (gap, p)

/-! ### Plain scalars -/

/-- A character that ends a plain scalar inside brackets. -/
def isFlowIndicator (c : Char) : Bool :=
  c == ',' || c == '[' || c == ']' || c == '\x7b' || c == '\x7d'

/-- The next word of a plain scalar, which is empty where the scalar ends. Inside brackets a
colon may not stand before a bracket, a comma or a question mark. -/
def plainWord? (inFlow : Bool) : List Char → Option (List Char)
  | [] => some []
  | c :: cs =>
    if isBlank c || isBreak c then some []
    else if inFlow && c == ':' && (cs.head?.any fun d => isFlowIndicator d || d == '?') then none
    else if c == ':' && Cursor.isGap cs then some []
    else if inFlow && isFlowIndicator c then some []
    else (plainWord? inFlow cs).map (c :: ·)

/-- A scalar that was read: its text, where it ended, and whether it ended after a break. -/
structure ScalarRead where
  text : List Char
  cursor : Cursor
  broken : Bool
deriving Repr, DecidableEq

/-- Reads the words of a plain scalar, at most `fuel` of them, after `text` and a gap. Outside
brackets its lines are indented by at least `indent` columns. -/
def readPlainWords? (inFlow : Bool) (indent : Nat) :
    (fuel : Nat) → List Char → Gap → Cursor → Option ScalarRead
  | 0, text, gap, p => some ⟨text, p, gap.broken⟩
  | fuel + 1, text, gap, p =>
    if p.atDocumentMarker || p.at? '#' then some ⟨text, p, gap.broken⟩
    else do
      let word ← plainWord? inFlow p.rest
      let text := if word.isEmpty then text else text ++ gap.text ++ word
      let gap := if word.isEmpty then gap else .none
      let p := p.skip word.length
      if !(p.atBlank || p.atBreak) then return ⟨text, p, gap.broken⟩
      let (gap, p) ← readGap? indent p.rest.length gap p
      if !inFlow && p.column < indent then return ⟨text, p, gap.broken⟩
      readPlainWords? inFlow indent fuel text gap p

/-- The plain scalar that starts here. -/
def readPlain? (inFlow : Bool) (indent : Nat) (p : Cursor) : Option ScalarRead :=
  readPlainWords? inFlow indent (p.rest.length + 1) [] .none p

/-! ### Quoted scalars -/

/-- What a backslash and one more character stand for. -/
def escapeText? : Char → Option Char
  | '0' => some '\x00'
  | 'a' => some '\x07'
  | 'b' => some '\x08'
  | 't' | '\t' => some '\t'
  | 'n' => some '\n'
  | 'v' => some '\x0b'
  | 'f' => some '\x0c'
  | 'r' => some '\r'
  | 'e' => some '\x1b'
  | ' ' => some ' '
  | '"' => some '"'
  | '/' => some '/'
  | '\\' => some '\\'
  | 'N' => some '\u0085'
  | '_' => some '\u00a0'
  | 'L' => some '\u2028'
  | 'P' => some '\u2029'
  | _ => Option.none

/-- The value of a hexadecimal digit. -/
def hexDigit? (c : Char) : Option Nat :=
  if '0' ≤ c && c ≤ '9' then some (c.toNat - 0x30)
  else if 'a' ≤ c && c ≤ 'f' then some (c.toNat - 0x57)
  else if 'A' ≤ c && c ≤ 'F' then some (c.toNat - 0x37)
  else Option.none

/-- The character whose code point is given by so many hexadecimal digits. -/
def hexChar? (count : Nat) (text : List Char) : Option Char := do
  let digits ← (text.take count).mapM hexDigit?
  let n := digits.foldl (fun n d => 16 * n + d) 0
  if digits.length == count && (n < 0xd800 || (0xdfff < n && n < 0x110000)) then
    some (Char.ofNat n)
  else Option.none

/-- The character that the escape at the start of a text stands for, and its length. -/
def readEscape? : List Char → Option (Char × Nat)
  | 'x' :: cs => (hexChar? 2 cs).map fun c => (c, 3)
  | 'u' :: cs => (hexChar? 4 cs).map fun c => (c, 5)
  | 'U' :: cs => (hexChar? 8 cs).map fun c => (c, 9)
  | c :: _ => (escapeText? c).map fun c => (c, 1)
  | [] => Option.none

/-- Reads a quoted scalar up to its closing quote, in at most `fuel` steps after `text`. No
line of it may start with the marker of a document. -/
def readQuoted? (double : Bool) : (fuel : Nat) → List Char → Cursor → Option ScalarRead
  | 0, _, _ => Option.none
  | fuel + 1, text, p =>
    let afterGap (gap : Gap) (p : Cursor) : Option ScalarRead := do
      let (gap, p) ← readGap? 0 p.rest.length gap p
      if p.atDocumentMarker then Option.none else readQuoted? double fuel (text ++ gap.text) p
    match double, p.rest with
    | _, [] => Option.none
    | false, '\'' :: '\'' :: _ => readQuoted? double fuel (text ++ ['\'']) (p.skip 2)
    | false, '\'' :: _ => some ⟨text, p.next, false⟩
    | true, '"' :: _ => some ⟨text, p.next, false⟩
    | true, '\\' :: cs =>
      if p.next.atBreak then afterGap .escapedBreak p.next.nextLine
      else do
        let (c, length) ← readEscape? cs
        readQuoted? double fuel (text ++ [c]) (p.skip (length + 1))
    | _, c :: _ =>
      if isBlank c || isBreak c then afterGap .none p
      else readQuoted? double fuel (text ++ [c]) p.next

end UseCases.Yaml
