/-
Settings: what a settings file says, and what holds where it says nothing.

A settings file is a TOML document with one table, `generator`. Keys it does not know are
errors. Where a table is expected an array will do: its items are the values of the keys in
their order, and items beyond the last key are ignored.
-/
import UseCases.Generation.Defaults
import UseCases.Generation.Mode
import UseCases.Settings.Problem
import UseCases.Toml.Document

namespace UseCases.Settings

open Generation Toml

/-- The settings of the generator. -/
structure Config where
  mode : Mode
  /-- The package name where the package itself names none. -/
  fallbackPackage : String
  /-- The file of the `Failure` type, inside `lib`. -/
  failurePath : String
  /-- The directory of the generated files. -/
  output : Option String
deriving Repr, DecidableEq

namespace Config

/-- The settings of an empty file. -/
def default : Config :=
  ⟨.simple, defaultPackage, defaultFailurePath, none⟩

/-! ### Reading -/

/-- The text of a value. -/
def text? : Value → Option String
  | .string text => some text
  | _ => none

/-- The mode that a value names: by a text, or by the one key of a table whose own value is
empty. -/
def mode? : Value → Option Mode
  | .string name => Mode.ofName? name
  | .table [(name, .table [])] | .table [(name, .array [])] => Mode.ofName? name
  | _ => none

/-- The settings with the value of one key, if the key is known and the value fits. -/
def set? (s : Config) (key : String) (value : Value) : Option Config :=
  match key with
  | "mode" => (mode? value).map fun mode => { s with mode }
  | "fallback_project_name" => (text? value).map fun name => { s with fallbackPackage := name }
  | "failure_import" => (text? value).map fun path => { s with failurePath := path }
  | "output" => (text? value).map fun path => { s with output := some path }
  | _ => none

/-- The keys in the order in which an array gives their values. -/
def keys : List String :=
  ["mode", "fallback_project_name", "failure_import", "output"]

/-- The settings with the values of some keys. -/
def setAll? (pairs : List (String × Value)) : Option Config :=
  pairs.foldlM (fun s (key, value) => s.set? key value) default

/-- The settings that the value of `generator` gives. -/
def ofGenerator? : Value → Option Config
  | .table entries => setAll? entries
  | .array items => setAll? (keys.zip items)
  | _ => none

/-- The settings that the entries of a document give. -/
def ofEntries? : List (String × Value) → Option Config
  | [] => some default
  | [("generator", value)] => ofGenerator? value
  | _ => none

/-! ### Checking -/

/-- A character of a package name. -/
def isPackageChar (c : Char) : Bool :=
  ('a' ≤ c && c ≤ 'z') || c.isDigit || c == '_'

/-- What is wrong with a package name that is not empty. -/
def nameFault? (name : String) : Option NameFault :=
  match name.toList with
  | [] => none
  | c :: cs =>
    if c.isDigit then some .startsWithDigit
    else if (c :: cs).all isPackageChar then none
    else some .wrongCharacter

/-- Checks a package name that a key gives. -/
def checkPackage (source : Source) (key name : String) : Except Problem Unit :=
  if name.isEmpty then .error (.invalid source key (key ++ " must not be empty"))
  else
    match nameFault? name with
    | some fault => .error (.packageName source key name fault)
    | none => .ok ()

/-- Checks the values of the settings. -/
def check (source : Source) (s : Config) : Except Problem Unit := do
  checkPackage source "fallback_project_name" s.fallbackPackage
  if (Text.trim s.failurePath.toList).isEmpty then
    throw (.invalid source "failure_import" "failure_import must not be empty")

/-- The settings that a file gives. -/
def read (source : Source) : Except Problem Config :=
  match (Toml.parse? source.text).bind ofEntries? with
  | none => .error (.malformed source)
  | some settings => do
    settings.check source
    return settings

end Config

end UseCases.Settings
