/-
Commands: what a command line asks for.

The arguments up to the first operand are about the program, the operand names a command,
and the rest is about that command. They are read in order, so the first thing that settles
the matter does so: a call for help, or a mistake. Whether something is missing or does not
go together is looked at in the end.
-/
import UseCases.CommandLine.Argument
import UseCases.Files.Path
import UseCases.Log
import UseCases.Settings.File

namespace UseCases.CommandLine

open Files Generation

/-- A shell that completions are made for. -/
inductive Shell where
  | bash
  | elvish
  | fish
  | powershell
  | zsh
deriving Repr, DecidableEq

/-- The shell of some name. -/
def Shell.ofName? : String → Option Shell
  | "bash" => some .bash
  | "elvish" => some .elvish
  | "fish" => some .fish
  | "powershell" => some .powershell
  | "zsh" => some .zsh
  | _ => none

/-- A call for the generation of use cases. -/
structure GenerateRequest where
  /-- Declaration files and directories to search. -/
  paths : List Path
  repository : Option String
  mode : Option Mode
  project : Option String
  pubspec : Path
  output : Option Path
  /-- The settings file. -/
  config : Path
  dryRun : Bool
  force : Bool
deriving Repr, DecidableEq

/-- A command with all that was asked of it. -/
inductive Command where
  | generate (request : GenerateRequest)
  | list (path : Path) (json : Bool)
  | completions (shell : Shell)
deriving Repr, DecidableEq

/-- A command line that asks for a command. -/
structure Invocation where
  command : Command
  /-- The least level of the log records that are shown. -/
  threshold : Level
deriving Repr, DecidableEq

/-- Why a command line asks for no command. -/
inductive Stop where
  | help
  | version
  | misuse
deriving Repr, DecidableEq

/-! ### What was given -/

/-- What was given to the program or to a command, in order. -/
structure Given where
  values : List (Switch × String)
  operands : List String
deriving Repr, DecidableEq

namespace Given

/-- The value of an option that was given. -/
def value? (g : Given) (s : Switch) : Option String :=
  g.values.lookup s

/-- The switch was given. -/
def has (g : Given) (s : Switch) : Bool :=
  (g.value? s).isSome

/-- Adds one thing that an argument says. A switch is given once. -/
def add (fits : List String → String → Bool) (g : Given) : Item → Except Stop Given
  | .mistake => .error .misuse
  | .operand text =>
    if fits g.operands text then .ok { g with operands := g.operands ++ [text] }
    else .error .misuse
  | .given .help _ => .error .help
  | .given .version _ => .error .version
  | .given s value =>
    if g.has s || !s.accepts value then .error .misuse
    else .ok { g with values := g.values ++ [(s, value)] }

/-- All that arguments say. `fits` tells which operands may follow others. -/
def ofItems (fits : List String → String → Bool) (items : List Item) : Except Stop Given :=
  items.foldlM (add fits) ⟨[], []⟩

/-- Nothing was given that excludes something else. -/
def isConsistent (g : Given) : Bool :=
  !(g.has .verbose && g.has .quiet)

end Given

/-! ### Commands -/

/-- The name of a command. -/
inductive CommandName where
  | generate
  | list
  | completions
deriving Repr, DecidableEq

/-- The switches of the program and of every command. -/
def commonSwitches : List Switch :=
  [.verbose, .quiet, .help]

namespace CommandName

/-- The name as it is written. -/
def text : CommandName → String
  | .generate => "generate"
  | .list => "list"
  | .completions => "completions"

/-- All commands. -/
def all : List CommandName :=
  [.generate, .list, .completions]

/-- The command that is written so. -/
def ofText? (text : String) : Option CommandName :=
  all.find? fun name => name.text == text

/-- The switches of a command. -/
def switches : CommandName → List Switch
  | .generate =>
    commonSwitches ++ [.repository, .mode, .projectName, .pubspec, .output, .config, .dryRun, .force]
  | .list => commonSwitches ++ [.json]
  | .completions => commonSwitches

/-- The operand may follow those that were given `before`. -/
def fits (name : CommandName) (before : List String) (operand : String) : Bool :=
  match name with
  | .generate => !operand.isEmpty
  | .list => before.isEmpty && !operand.isEmpty
  | .completions => before.isEmpty && (Shell.ofName? operand).isSome

/-- The command, if all its operands were given. -/
def command? (name : CommandName) (g : Given) : Option Command :=
  match name, g.operands with
  | .generate, path :: paths =>
    some (.generate
      { paths := path :: paths
        repository := g.value? .repository
        mode := (g.value? .mode).bind fun text => (Mode.parse text).toOption
        project := g.value? .projectName
        pubspec := (g.value? .pubspec).getD "pubspec.yaml"
        output := g.value? .output
        config := (g.value? .config).getD Settings.fileName
        dryRun := g.has .dryRun
        force := g.has .force })
  | .list, [path] => some (.list path (g.has .json))
  | .completions, [shell] => (Shell.ofName? shell).map .completions
  | _, _ => none

end CommandName

/-- Reads the arguments after the name of a command. -/
def readCommand (name : CommandName) (args : List String) : Except Stop (Given × Command) := do
  let given ← Given.ofItems name.fits (items name.switches args)
  match name.command? given with
  | none => throw .misuse
  | some command => if given.isConsistent then return (given, command) else throw .misuse

/-- Reads the arguments after `help`, which may name one command. -/
def readHelp : List String → Stop
  | [] | ["help"] => .help
  | [name] => if (CommandName.ofText? name).isSome then .help else .misuse
  | _ => .misuse

/-- The argument stands before the name of the command. -/
def isAboutProgram (arg : String) : Bool :=
  namesSwitch arg && arg != "--"

/-- The least level of the records to show, given what the program and the command were
told. -/
def thresholdOf (program command : Given) : Level :=
  if program.has .quiet || command.has .quiet then .error
  else if program.has .verbose || command.has .verbose then .debug
  else .warn

/-- Reads a command line. -/
def parse (args : List String) : Except Stop Invocation := do
  let front := args.takeWhile isAboutProgram
  let program ← Given.ofItems (fun _ _ => false) (items (commonSwitches ++ [.version]) front)
  match args.drop front.length with
  | [] => throw .misuse
  | "help" :: names => throw (readHelp names)
  | name :: rest =>
    match CommandName.ofText? name with
    | none => throw .misuse
    | some name =>
      let (given, command) ← readCommand name rest
      if program.isConsistent then return ⟨command, thresholdOf program given⟩
      else throw .misuse

end UseCases.CommandLine
