/-
Switches: the flags and options of the command line.
-/
import UseCases.Generation.Mode

namespace UseCases.CommandLine

/-- A flag, or an option that takes a value. -/
inductive Switch where
  | verbose
  | quiet
  | help
  | version
  | repository
  | mode
  | projectName
  | pubspec
  | output
  | config
  | dryRun
  | force
  | json
deriving Repr, DecidableEq

namespace Switch

/-- The name after two hyphens. -/
def long : Switch → String
  | .verbose => "verbose"
  | .quiet => "quiet"
  | .help => "help"
  | .version => "version"
  | .repository => "repository"
  | .mode => "mode"
  | .projectName => "project-name"
  | .pubspec => "pubspec"
  | .output => "output"
  | .config => "config"
  | .dryRun => "dry-run"
  | .force => "force"
  | .json => "json"

/-- The letter after one hyphen. -/
def short? : Switch → Option Char
  | .verbose => some 'v'
  | .quiet => some 'q'
  | .help => some 'h'
  | .version => some 'V'
  | .repository => some 'r'
  | .mode => some 'm'
  | .projectName => some 'p'
  | .output => some 'o'
  | .config => some 'c'
  | .force => some 'f'
  | .pubspec | .dryRun | .json => none

/-- The switch is an option. -/
def takesValue : Switch → Bool
  | .repository | .mode | .projectName | .pubspec | .output | .config => true
  | .verbose | .quiet | .help | .version | .dryRun | .force | .json => false

/-- The text can be the option's value. A path is not empty. -/
def accepts (s : Switch) (value : String) : Bool :=
  match s with
  | .mode => (Generation.Mode.parse value).isOk
  | .pubspec | .output | .config => !value.isEmpty
  | _ => true

end Switch

end UseCases.CommandLine
