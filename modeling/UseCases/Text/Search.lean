/-
Finding and removing a fixed text.
-/
namespace UseCases.Text

/-- The text after a leading `pattern`, or nothing when it does not start with it. -/
def after? : (pattern text : List Char) → Option (List Char)
  | [], cs => some cs
  | _ :: _, [] => none
  | p :: ps, c :: cs => if p = c then after? ps cs else none

/-- The text starts with `pattern`. -/
def startsWith (pattern text : List Char) : Bool :=
  pattern.isPrefixOf text

/-- The text ends with `pattern`. -/
def endsWith (pattern text : List Char) : Bool :=
  pattern.isSuffixOf text

/-- `pattern` stands somewhere in the text. -/
def contains (pattern : List Char) : List Char → Bool
  | [] => pattern.isEmpty
  | c :: cs => pattern.isPrefixOf (c :: cs) || contains pattern cs

/-- The text after the first `pattern` in it. -/
def afterFirst? (pattern : List Char) : List Char → Option (List Char)
  | [] => after? pattern []
  | c :: cs => (after? pattern (c :: cs)).or (afterFirst? pattern cs)

/-- The first suffix of the text on which `read?` succeeds, as what it reads there. -/
def firstMatch? {α : Type} (read? : List Char → Option α) : List Char → Option α
  | [] => read? []
  | c :: cs => (read? (c :: cs)).or (firstMatch? read? cs)

/-- The text without its leading copies of `pattern`. -/
def dropCopies (pattern : List Char) (text : List Char) : List Char :=
  go text.length text
where
  /-- At most `fuel` copies are dropped; the length of the text is enough. -/
  go : Nat → List Char → List Char
    | 0, cs => cs
    | fuel + 1, cs =>
      match after? pattern cs with
      | some rest => go fuel rest
      | none => cs

/-- The pieces between the characters that `isCut` holds of; there is always one. -/
def splitAt (isCut : Char → Bool) : List Char → List (List Char)
  | [] => [[]]
  | c :: cs =>
    match splitAt isCut cs with
    | [] => [[c]]
    | piece :: pieces => if isCut c then [] :: piece :: pieces else (c :: piece) :: pieces

/-- The lines of a text, without the newline characters that end them. -/
def lines (text : List Char) : List (List Char) :=
  splitAt (· == '\n') text

/-- The texts with `separator` between them. -/
def join (separator : String) : List String → String
  | [] => ""
  | [s] => s
  | s :: t :: rest => s ++ separator ++ join separator (t :: rest)

end UseCases.Text
