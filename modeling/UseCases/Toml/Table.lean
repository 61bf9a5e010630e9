/-
Tables under construction.

A table of a document can be opened by a header, come into being on the way to another
table, or be built by dotted keys. Which of these it was decides what may still be added:
a table is opened once, and dotted keys do not reach into a table that was opened.
-/
import UseCases.Toml.Value

namespace UseCases.Toml

/-- How a table came into being. -/
inductive Origin where
  /-- On the way to another table. -/
  | implied
  /-- By its header. -/
  | opened
  /-- By dotted keys. -/
  | dotted
deriving Repr, DecidableEq

/-- What a key of a table under construction means. -/
inductive Node where
  /-- A value, to which nothing can be added. -/
  | leaf (value : Value)
  | table (origin : Origin) (entries : List (String × Node))
  /-- An array of tables, each with its own header; only the last one can grow. -/
  | tables (elements : List (List (String × Node)))
deriving Repr

/-- The entries of a table under construction. -/
abbrev Entries := List (String × Node)

namespace Entries

/-- What a key means. -/
def find? (key : String) : Entries → Option Node
  | [] => none
  | (k, node) :: rest => if k = key then some node else find? key rest

/-- The entries with a new meaning for a key, which keeps its position. -/
def set (key : String) (node : Node) : Entries → Entries
  | [] => [(key, node)]
  | (k, n) :: rest => if k = key then (k, node) :: rest else (k, n) :: set key node rest

/-- Changes the table that `path` leads to from a table of the given origin. Tables that are
missing on the way get the origin `missing`; dotted keys do not pass an opened table. -/
def change? (missing : Origin) (act : Origin → Entries → Option Entries) :
    (path : List String) → Origin → Entries → Option Entries
  | [], origin, entries => act origin entries
  | key :: path, _, entries =>
    match find? key entries with
    | none => do
      let inner ← change? missing act path missing []
      return entries.set key (.table missing inner)
    | some (.leaf _) => none
    | some (.table origin inner) =>
      if missing = .dotted ∧ origin = .opened then none
      else do
        let inner ← change? missing act path origin inner
        return entries.set key (.table origin inner)
    | some (.tables elements) =>
      match elements.getLast? with
      | none => none
      | some last => do
        let last ← change? missing act path .opened last
        return entries.set key (.tables (elements.dropLast ++ [last]))

/-- Adds a value under a key that has none. -/
def insert? (key : String) (value : Value) (entries : Entries) : Option Entries :=
  if (entries.find? key).isSome then none else some (entries ++ [(key, .leaf value)])

/-- Adds a value under a dotted key of an opened table. The last part of a dotted key goes
into a table that dotted keys built. -/
def define? (key : List String) (value : Value) (entries : Entries) : Option Entries :=
  match key.getLast? with
  | none => none
  | some last =>
    let path := key.dropLast
    let act (origin : Origin) (inner : Entries) : Option Entries :=
      if path.isEmpty || origin == .dotted then inner.insert? last value else none
    entries.change? .dotted act path .opened

/-- Adds values under dotted keys, one after the other. -/
def defineAll? (pairs : List (List String × Value)) (entries : Entries) : Option Entries :=
  pairs.foldlM (fun entries (key, value) => entries.define? key value) entries

/-- Opens the table that a header names, and adds values to it. It may have come into being
on the way to another one. -/
def open? (header : List String) (pairs : List (List String × Value)) (entries : Entries) :
    Option Entries :=
  match header.getLast? with
  | none => none
  | some last =>
    let act (_ : Origin) (inner : Entries) : Option Entries :=
      match inner.find? last with
      | none => do return inner.set last (.table .opened (← defineAll? pairs []))
      | some (.table .implied found) => do
        return inner.set last (.table .opened (← defineAll? pairs found))
      | some _ => none
    entries.change? .implied act header.dropLast .opened

/-- Adds a table to the array of tables that a header names. -/
def append? (header : List String) (pairs : List (List String × Value)) (entries : Entries) :
    Option Entries :=
  match header.getLast? with
  | none => none
  | some last =>
    let act (_ : Origin) (inner : Entries) : Option Entries :=
      match inner.find? last with
      | none => do return inner.set last (.tables [← defineAll? pairs []])
      | some (.tables elements) => do
        return inner.set last (.tables (elements ++ [← defineAll? pairs []]))
      | some _ => none
    entries.change? .implied act header.dropLast .opened

end Entries

/-! ### Finished values -/

mutual

/-- The value of a finished node. -/
def Node.value : Node → Value
  | .leaf value => value
  | .table _ entries => .table (entryValues entries)
  | .tables elements => .array (tableValues elements)

/-- The values of finished entries. -/
def entryValues : List (String × Node) → List (String × Value)
  | [] => []
  | (key, node) :: rest => (key, node.value) :: entryValues rest

/-- The values of finished tables. -/
def tableValues : List (List (String × Node)) → List Value
  | [] => []
  | entries :: rest => .table (entryValues entries) :: tableValues rest

end

end UseCases.Toml
