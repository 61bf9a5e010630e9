/-
Problems with a settings file.
-/
import UseCases.Files.OsError
import UseCases.Settings.Label

namespace UseCases.Settings

/-- A settings file with the name it is reported under. -/
structure Source where
  text : String
  name : String
deriving Repr, DecidableEq

/-- Why a text cannot be the name of a Dart package. -/
inductive NameFault where
  | startsWithDigit
  | wrongCharacter
deriving Repr, DecidableEq

/-- The fault in words. -/
def NameFault.reason : NameFault → String
  | .startsWithDigit => "package names cannot start with a digit"
  | .wrongCharacter =>
    "package names may only contain lowercase letters, digits, and underscores"

/-- What can be wrong with a settings file. -/
inductive Problem where
  /-- It exists and cannot be read. -/
  | unreadable (path : String) (cause : Files.OsError)
  /-- It is no TOML, or not the TOML of a settings file. -/
  | malformed (source : Source)
  /-- The value of a key must not be empty. -/
  | invalid (source : Source) (key message : String)
  /-- The value of a key is no package name. -/
  | packageName (source : Source) (key name : String) (fault : NameFault)
deriving Repr, DecidableEq

/-- A label in a settings file: a range and what is said about it. -/
structure Label where
  text : String
  span : Span
deriving Repr, DecidableEq

namespace Problem

/-- The problem in words. -/
def message : Problem → String
  | .unreadable path _ => "failed to read '" ++ path ++ "'"
  | .malformed _ => "failed to parse casegen.toml"
  | .invalid _ _ message => message
  | .packageName _ _ name _ => "invalid Dart package name '" ++ name ++ "'"

/-- The problem's code. -/
def code : Problem → String
  | .unreadable _ _ => "casegen::io_error"
  | .malformed _ => "casegen::parse_error"
  | .invalid _ _ _ => "casegen::validation_error"
  | .packageName _ _ _ _ => "casegen::invalid_package_name"

/-- What to do about it. -/
def help : Problem → Option String
  | .unreadable _ _ | .invalid _ _ _ => none
  | .malformed _ =>
    some ("supported keys under [generator] are: " ++
      "mode, fallback_project_name, failure_import, output")
  | .packageName _ _ _ fault =>
    some (fault.reason ++ ". Use only lowercase letters, digits, and underscores, " ++
      "starting with a letter or underscore.")

/-- The settings file, if it could be read. -/
def source? : Problem → Option Source
  | .unreadable _ _ => none
  | .malformed source | .invalid source _ _ | .packageName source _ _ _ => some source

/-- The value that is wrong, if its key is found in the file. -/
def label? : Problem → Option Label
  | .unreadable _ _ | .malformed _ => none
  | .invalid source key message => (valueSpan? source.text key).map (Label.mk message)
  | .packageName source key _ _ =>
    (valueSpan? source.text key).map (Label.mk "invalid package name")

end Problem

end UseCases.Settings
