/-
TOML values.

Numbers, booleans and dates are kept as they are written: a reader of settings asks only
for texts, and has to know no more of any other scalar than that it is one.
-/
namespace UseCases.Toml

/-- A value of a TOML document. -/
inductive Value where
  | string (text : String)
  /-- A number, a boolean or a date, as it is written. -/
  | scalar (text : String)
  | array (items : List Value)
  /-- The entries of a table in the order in which they were defined. -/
  | table (entries : List (String × Value))
deriving Repr

end UseCases.Toml
