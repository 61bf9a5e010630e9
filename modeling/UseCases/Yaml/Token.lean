/-
YAML tokens.

Indentation becomes brackets: a token opens a block where a column is first used and one
closes it where the text goes back to the left. A key is known to be one only once the
colon after it is read, so the places where a key could have started are remembered, one for
each level of brackets. Such a place lapses at the end of its line or after 1024
characters, and it is an error when it had to be a key.
-/
import UseCases.Yaml.Block
import UseCases.Yaml.Flow

namespace UseCases.Yaml

/-- A token. -/
inductive Token where
  | version (major minor : Nat)
  | tagDirective (handle stem : String)
  | documentStart
  | documentEnd
  | blockSequence
  | blockMapping
  | blockEnd
  | flowSequence
  | flowSequenceEnd
  | flowMapping
  | flowMappingEnd
  /-- The dash before an item. -/
  | item
  | comma
  | key
  | value
  | alias (name : String)
  | anchor (name : String)
  | tag (handle suffix : String)
  /-- A scalar, and whether it is plain. -/
  | scalar (text : String) (plain : Bool)
deriving Repr, DecidableEq

/-- A place where a key may have started. -/
structure KeyPlace where
  /-- The number of tokens before it. -/
  token : Nat
  line : Nat
  column : Nat
  index : Nat
  /-- Nothing but a key can stand there. -/
  required : Bool
deriving Repr, DecidableEq

/-- What is known after some tokens. -/
structure Reader where
  cursor : Cursor
  tokens : List Token
  /-- The columns of the open blocks, innermost first. -/
  blocks : List Nat
  /-- The place of a possible key on each level of brackets, innermost first. -/
  keys : List (Option KeyPlace)
  /-- A key may start here. -/
  keyAllowed : Bool
deriving Repr, DecidableEq

namespace Reader

/-- The reader at the start of a text. -/
def start (text : List Char) : Reader :=
  ⟨.start text, [], [], [none], true⟩

/-- The reader stands inside brackets. -/
def inFlow (r : Reader) : Bool :=
  1 < r.keys.length

/-- The column of the innermost block, or nothing outside all blocks. -/
def block? (r : Reader) : Option Nat :=
  r.blocks.head?

/-- The reader with one more token. -/
def push (r : Reader) (t : Token) : Reader :=
  { r with tokens := r.tokens ++ [t] }

/-- The reader with a token in front of the token of some number. -/
def insert (r : Reader) (number : Nat) (t : Token) : Reader :=
  { r with tokens := r.tokens.take number ++ t :: r.tokens.drop number }

/-- The reader at another position. -/
def moved (r : Reader) (cursor : Cursor) : Reader :=
  { r with cursor }

/-- The reader with keys allowed or not. -/
def allowing (r : Reader) (keyAllowed : Bool) : Reader :=
  { r with keyAllowed }

/-! ### Keys -/

/-- The place of a possible key with this level's place forgotten, unless a key is
required there. -/
def forgetKey? (r : Reader) : Option Reader :=
  match r.keys with
  | some place :: outer => if place.required then none else some { r with keys := none :: outer }
  | _ => some r

/-- Remembers that a key may start here. -/
def rememberKey? (r : Reader) : Option Reader := do
  if !r.keyAllowed then return r
  let r ← r.forgetKey?
  let required := !r.inFlow && r.block? == some r.cursor.column
  let place : KeyPlace :=
    ⟨r.tokens.length, r.cursor.line, r.cursor.column, r.cursor.index, required⟩
  return { r with keys := some place :: r.keys.tail }

/-- The place has lapsed at a position. -/
def lapsed (p : Cursor) (place : KeyPlace) : Bool :=
  place.line < p.line || place.index + 1024 < p.index

/-- Forgets the places that have lapsed. -/
def forgetLapsed? (r : Reader) : Option Reader := do
  let check (place : Option KeyPlace) : Option (Option KeyPlace) :=
    match place with
    | some k => if lapsed r.cursor k then if k.required then none else some none else some (some k)
    | none => some none
  return { r with keys := ← r.keys.mapM check }

/-! ### Blocks -/

/-- Opens a block at a column to the right of the innermost one. Its token goes in front of
the token of the given number. Inside brackets there are no blocks. -/
def openBlock (r : Reader) (column number : Nat) (t : Token) : Reader :=
  if r.inFlow then r
  else if r.block?.all (· < column) then
    { r.insert number t with blocks := column :: r.blocks }
  else r

/-- Closes the blocks to the right of a column. -/
def closeTo (r : Reader) (column : Nat) : Reader :=
  if r.inFlow then r
  else
    let closed := r.blocks.takeWhile (column < ·)
    { r with
      tokens := r.tokens ++ closed.map fun _ => .blockEnd
      blocks := r.blocks.drop closed.length }

/-- Closes all blocks. -/
def closeAll (r : Reader) : Reader :=
  if r.inFlow then r
  else { r with tokens := r.tokens ++ r.blocks.map (fun _ => .blockEnd), blocks := [] }

/-! ### Between tokens -/

/-- Skips white space, comments and breaks, in at most `fuel` steps. A tab is no indentation:
it is skipped only where no key of a block can start. -/
def skipVoid : (fuel : Nat) → Reader → Reader
  | 0, r => r
  | fuel + 1, r =>
    let tabs := r.inFlow || !r.keyAllowed
    let p := r.cursor.skipWhile fun c => c == ' ' || (tabs && c == '\t')
    let p := if p.at? '#' then p.skipWhile fun _ => true else p
    if p.atBreak then
      skipVoid fuel { r with cursor := p.nextLine, keyAllowed := r.keyAllowed || !r.inFlow }
    else r.moved p

/-! ### Single tokens -/

/-- A token of some characters. -/
def mark (r : Reader) (length : Nat) (t : Token) : Reader :=
  (r.push t).moved (r.cursor.skip length)

/-- A character of an anchor or of the handle of a tag. -/
def isNameChar (c : Char) : Bool :=
  c.isAlphanum || c == '_' || c == '-'

/-- An anchor or alias, whose name goes up to white space or a few kinds of punctuation. -/
def anchor? (r : Reader) (t : String → Token) : Option Reader := do
  let r ← r.rememberKey?
  let p := r.cursor.next
  let name := p.rest.takeWhile isNameChar
  let p := p.skip name.length
  let ended := Cursor.isGap p.rest || p.rest.head?.any fun c => "?:,]\x7d%@`".toList.contains c
  if name.isEmpty || !ended then none
  else return ((r.push (t (String.ofList name))).moved p).allowing false

/-- A character of a tag's suffix. -/
def isTagChar (c : Char) : Bool :=
  isNameChar c || ";/?:@&=+$.!~*'()%".toList.contains c

/-- A tag: `<…>` after the exclamation mark, or a handle and a suffix. -/
def tag? (r : Reader) : Option Reader := do
  let r ← r.rememberKey?
  let p := r.cursor.next
  let finish (handle suffix : List Char) (p : Cursor) : Option Reader :=
    if Cursor.isGap p.rest || (r.inFlow && p.at? ',') then
      let t := Token.tag (String.ofList handle) (String.ofList suffix)
      some (((r.push t).moved p).allowing false)
    else none
  match p.rest with
  | '<' :: cs =>
    let uri := cs.takeWhile fun c => isTagChar c || c == ',' || c == '[' || c == ']'
    let p := p.skip (uri.length + 1)
    if uri.isEmpty || !p.at? '>' then none else finish [] uri p.next
  | cs =>
    let name := cs.takeWhile isNameChar
    match cs.drop name.length with
    | '!' :: more =>
      let suffix := more.takeWhile isTagChar
      if suffix.isEmpty then none
      else finish ('!' :: name ++ ['!']) suffix (p.skip (name.length + 1 + suffix.length))
    | _ =>
      let suffix := cs.takeWhile isTagChar
      finish ['!'] suffix (p.skip suffix.length)

/-- A number of a version. -/
def readNumber? (p : Cursor) : Option (Nat × Cursor) :=
  let digits := p.rest.takeWhile Char.isDigit
  if digits.isEmpty || 9 < digits.length then none
  else some (digits.foldl (fun n c => 10 * n + (c.toNat - 0x30)) 0, p.skip digits.length)

/-- A directive, which has its line for itself. -/
def directive? (r : Reader) : Option Reader := do
  let r ← r.closeAll.forgetKey?
  let p := r.cursor.next
  let name := p.rest.takeWhile isNameChar
  let p := (p.skip name.length).skipWhile isBlank
  let finish (t : Token) (p : Cursor) : Option Reader := do
    let p ← endHeader? p
    return ((r.push t).moved p).allowing false
  if name == "YAML".toList then do
    let (major, p) ← readNumber? p
    if !p.at? '.' then none
    else
      let (minor, p) ← readNumber? p.next
      finish (.version major minor) p
  else if name == "TAG".toList then
    match p.rest with
    | '!' :: cs =>
      let inner := cs.takeWhile isNameChar
      let closed := (cs.drop inner.length).head? == some '!'
      if !closed && !inner.isEmpty then none
      else
        let handle := '!' :: inner ++ if closed then ['!'] else []
        let p := p.skip handle.length
        let q := p.skipWhile isBlank
        let stem := q.rest.takeWhile fun c => isTagChar c || c == ',' || c == '[' || c == ']'
        if !p.atBlank || stem.isEmpty then none
        else finish (.tagDirective (String.ofList handle) (String.ofList stem)) (q.skip stem.length)
    | _ => none
  else none

/-- The marker of a document's start or end. -/
def documentMarker? (r : Reader) (t : Token) : Option Reader := do
  let r ← r.closeAll.forgetKey?
  return (r.mark 3 t).allowing false

/-- An opening bracket. -/
def openFlow? (r : Reader) (t : Token) : Option Reader := do
  let r ← r.rememberKey?
  let r := r.mark 1 t
  return { r with keys := none :: r.keys, keyAllowed := true }

/-- A closing bracket. -/
def closeFlow? (r : Reader) (t : Token) : Option Reader := do
  let r ← r.forgetKey?
  let keys := if r.inFlow then r.keys.tail else r.keys
  return { (r.mark 1 t) with keys, keyAllowed := false }

/-- A comma between brackets. -/
def comma? (r : Reader) : Option Reader := do
  let r ← r.forgetKey?
  return (r.mark 1 .comma).allowing true

/-- The dash before an item. -/
def item? (r : Reader) : Option Reader := do
  if !r.inFlow && !r.keyAllowed then none
  else
    let r := r.openBlock r.cursor.column r.tokens.length .blockSequence
    let r ← r.forgetKey?
    return (r.mark 1 .item).allowing true

/-- The question mark before a key. -/
def key? (r : Reader) : Option Reader := do
  if !r.inFlow && !r.keyAllowed then none
  else
    let r := r.openBlock r.cursor.column r.tokens.length .blockMapping
    let r ← r.forgetKey?
    return (r.mark 1 .key).allowing !r.inFlow

/-- The colon before a value, which makes a key of what stands at a remembered place. -/
def value? (r : Reader) : Option Reader := do
  match r.keys with
  | some place :: outer =>
    let r := { r with keys := none :: outer }
    let r := (r.insert place.token .key).openBlock place.column place.token .blockMapping
    return (r.mark 1 .value).allowing false
  | _ =>
    if !r.inFlow && !r.keyAllowed then none
    else
      let r := r.openBlock r.cursor.column r.tokens.length .blockMapping
      return (r.mark 1 .value).allowing !r.inFlow

/-- A block scalar. -/
def blockScalar? (r : Reader) (literal : Bool) : Option Reader := do
  let r ← r.forgetKey?
  let (text, p) ← readBlock? literal r.block? r.cursor.next
  return ((r.push (.scalar (String.ofList text) false)).moved p).allowing true

/-- A quoted scalar. -/
def quoted? (r : Reader) (double : Bool) : Option Reader := do
  let r ← r.rememberKey?
  let p := r.cursor.next
  let read ← readQuoted? double (p.rest.length + 1) [] p
  return ((r.push (.scalar (String.ofList read.text) false)).moved read.cursor).allowing false

/-- A plain scalar. -/
def plain? (r : Reader) : Option Reader := do
  let r ← r.rememberKey?
  let indent := match r.block? with
    | some column => column + 1
    | none => 0
  let read ← readPlain? r.inFlow indent r.cursor
  return ((r.push (.scalar (String.ofList read.text) true)).moved read.cursor).allowing read.broken

/-- The characters that cannot start a plain scalar on their own. -/
def isIndicator (c : Char) : Bool :=
  "-?:,[]\x7b\x7d#&*!|>'\"%@`".toList.contains c

/-- Reads the token that starts with a character, when `cs` follows it. -/
def token? (r : Reader) (c : Char) (cs : List Char) : Option Reader :=
  let gap := Cursor.isGap cs
  if r.cursor.column == 0 && c == '%' then r.directive?
  else if r.cursor.atDocumentMarker then
    r.documentMarker? (if c = '-' then .documentStart else .documentEnd)
  else if c = '[' then r.openFlow? .flowSequence
  else if c = '\x7b' then r.openFlow? .flowMapping
  else if c = ']' then r.closeFlow? .flowSequenceEnd
  else if c = '\x7d' then r.closeFlow? .flowMappingEnd
  else if c = ',' then r.comma?
  else if c = '-' && gap then r.item?
  else if c = '?' && (r.inFlow || gap) then r.key?
  else if c = ':' && (r.inFlow || gap) then r.value?
  else if c = '*' then r.anchor? .alias
  else if c = '&' then r.anchor? .anchor
  else if c = '!' then r.tag?
  else if c = '|' && !r.inFlow then r.blockScalar? true
  else if c = '>' && !r.inFlow then r.blockScalar? false
  else if c = '\'' then r.quoted? false
  else if c = '"' then r.quoted? true
  else
    let startsPlain :=
      !(isBlank c || isBreak c || isIndicator c) ||
        (c == '-' && !(cs.head?.any isBlank)) ||
        (!r.inFlow && (c == '?' || c == ':') && !gap)
    if startsPlain then r.plain? else none

/-- The tokens of the rest of a text, which has at most `fuel` of them. -/
def tokens? : (fuel : Nat) → Reader → Option (List Token)
  | 0, _ => none
  | fuel + 1, r => do
    let r ← (skipVoid (r.cursor.rest.length + 1) r).forgetLapsed?
    let r := r.closeTo r.cursor.column
    match r.cursor.rest with
    | [] => return (← r.closeAll.forgetKey?).tokens
    | c :: cs => tokens? fuel (← r.token? c cs)

end Reader

/-- The tokens of a text. -/
def tokens? (text : List Char) : Option (List Token) :=
  if text.all isPrintable then Reader.tokens? (text.length + 1) (.start text) else none

end UseCases.Yaml
