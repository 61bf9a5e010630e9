/-
TOML documents.

A document is read line by line: pairs of a key and a value, and headers, which say which
table the pairs after them go to. The language is TOML 1.1, so tables in braces may spread
over lines and end with a comma. A document that is not well formed, or defines a table or
a key twice, has no value.
-/
import UseCases.Toml.Lexeme
import UseCases.Toml.Table

namespace UseCases.Toml

/-! ### Values -/

mutual

/-- The value at the start of a text, nested at most `fuel` deep. -/
def readValue? : (fuel : Nat) → List Char → Option (Value × List Char)
  | 0, _ => none
  | fuel + 1, text =>
    match text with
    | '[' :: cs => (readItems? fuel cs).map fun (items, rest) => (.array items, rest)
    | '\x7b' :: cs =>
      (readPairs? fuel [] cs).map fun (entries, rest) => (.table (entryValues entries), rest)
    | '"' :: _ | '\'' :: _ =>
      (readString? text).map fun (word, rest) => (.string (String.ofList word), rest)
    | _ => (readScalar? text).map fun (word, rest) => (.scalar (String.ofList word), rest)

/-- The items of an array, up to its closing bracket. -/
def readItems? : (fuel : Nat) → List Char → Option (List Value × List Char)
  | 0, _ => none
  | fuel + 1, text =>
    match skipVoid? false text with
    | some (']' :: cs) => some ([], cs)
    | some cs =>
      (readValue? fuel cs).bind fun (item, rest) =>
        match skipVoid? false rest with
        | some (',' :: cs) => (readItems? fuel cs).map fun (items, rest) => (item :: items, rest)
        | some (']' :: cs) => some ([item], cs)
        | _ => none
    | none => none

/-- The entries of a table in braces, added to those that were read before, up to its closing
brace. -/
def readPairs? : (fuel : Nat) → Entries → List Char → Option (Entries × List Char)
  | 0, _, _ => none
  | fuel + 1, entries, text =>
    match skipVoid? false text with
    | some ('\x7d' :: cs) => some (entries, cs)
    | some cs =>
      (readKey? cs).bind fun (key, rest) =>
        match rest with
        | '=' :: cs =>
          (readValue? fuel (skipSpaces cs)).bind fun (value, rest) =>
            (entries.define? key value).bind fun entries =>
              match skipVoid? false rest with
              | some (',' :: cs) => readPairs? fuel entries cs
              | some ('\x7d' :: cs) => some (entries, cs)
              | _ => none
        | _ => none
    | none => none

end

/-! ### Lines -/

/-- A line of a document that is not empty. -/
inductive Statement where
  | pair (key : List String) (value : Value)
  /-- The header of a table. -/
  | header (key : List String)
  /-- The header of one table of an array. -/
  | arrayHeader (key : List String)
deriving Repr

/-- The statement at the start of a text, and the rest of its line. -/
def readStatement? (text : List Char) : Option (Statement × List Char) :=
  match text with
  | '[' :: '[' :: cs =>
    (readKey? cs).bind fun (key, rest) =>
      match rest with
      | ']' :: ']' :: cs => some (.arrayHeader key, cs)
      | _ => none
  | '[' :: cs =>
    (readKey? cs).bind fun (key, rest) =>
      match rest with
      | ']' :: cs => some (.header key, cs)
      | _ => none
  | cs =>
    (readKey? cs).bind fun (key, rest) =>
      match rest with
      | '=' :: cs =>
        (readValue? (cs.length + 1) (skipSpaces cs)).map fun (value, rest) =>
          (.pair key value, rest)
      | _ => none

/-- The statements of a text with at most `fuel` lines. -/
def readStatements? : (fuel : Nat) → List Char → Option (List Statement)
  | 0, _ => none
  | fuel + 1, text =>
    match skipSpaces text with
    | [] => some []
    | cs =>
      match endLine? cs with
      | some rest => readStatements? fuel rest
      | none => do
        let (statement, rest) ← readStatement? cs
        let rest ← endLine? rest
        return statement :: (← readStatements? fuel rest)

/-- A header with the pairs that follow it. -/
structure Section where
  header : Statement
  pairs : List (List String × Value)
deriving Repr

/-- The pairs before the first header, and the sections. -/
def sections : List Statement → List (List String × Value) × List Section
  | [] => ([], [])
  | .pair key value :: rest =>
    let (pairs, more) := sections rest
    ((key, value) :: pairs, more)
  | header :: rest =>
    let (pairs, more) := sections rest
    ([], ⟨header, pairs⟩ :: more)

/-- The entries of a document with those of one more section. -/
def addSection? (entries : Entries) (s : Section) : Option Entries :=
  match s.header with
  | .header key => entries.open? key s.pairs
  | .arrayHeader key => entries.append? key s.pairs
  | .pair _ _ => none

/-- The entries of a document. A byte order mark in front of it is skipped. -/
def parse? (text : String) : Option (List (String × Value)) := do
  let text := match text.toList with
    | '\ufeff' :: cs => cs
    | cs => cs
  let (pairs, more) := sections (← readStatements? (text.length + 1) text)
  let entries ← Entries.defineAll? pairs []
  let entries ← more.foldlM addSection? entries
  return entryValues entries

end UseCases.Toml
