/-
Runs of the program: what it prints for a command line and how it ends.
-/
import UseCases.CommandLine.Command
import UseCases.Project.List

namespace UseCases.CommandLine

open Files Generation Project Report Settings

/-- How a run ended. -/
inductive Ending where
  | done
  | failed (failure : Failure)
  | badSettings (problem : Problem)
  /-- The command line made no sense. -/
  | misused
deriving Repr, DecidableEq

/-- The exit code of a run. -/
def Ending.exitCode : Ending → Nat
  | .done => 0
  | .failed _ | .badSettings _ => 1
  | .misused => 2

/-- What a run printed and how it ended. -/
structure Outcome where
  printed : Printed
  ending : Ending
deriving Repr, DecidableEq

/-- A run that printed nothing. -/
def Outcome.silent (ending : Ending) : Outcome := ⟨⟨"", ""⟩, ending⟩

/-- A run that printed a text and is done. -/
def Outcome.text (out : String) : Outcome := ⟨⟨out, ""⟩, .done⟩

/-- The name of the program. -/
def programName : String := "casegen"

/-- What the program prints about its version. -/
def versionText : String := programName ++ " 0.3.0\n"

/-- How the program is used. -/
def usageText : String :=
  "Generate Dart use cases from repository interfaces\n\n" ++
    "Usage: casegen [-v | -q] <COMMAND>\n\n" ++
    "Commands:\n" ++
    "  generate [OPTIONS] <PATHS>...  Generate use cases for repository files or directories\n" ++
    "  list [--json] <PATH>           Show the repository methods found in a file or directory\n" ++
    "  completions <SHELL>            Generate shell completions\n" ++
    "  help [COMMAND]                 Print this text\n\n" ++
    "Options of generate:\n" ++
    "  -r, --repository <NAME>    Repository class to wrap\n" ++
    "  -m, --mode <MODE>          Generation mode: simple or professional\n" ++
    "  -p, --project-name <NAME>  Dart package name for imports\n" ++
    "      --pubspec <PATH>       Path to pubspec.yaml\n" ++
    "  -o, --output <PATH>        Output directory\n" ++
    "  -c, --config <PATH>        Path to casegen.toml\n" ++
    "      --dry-run              Preview generated code without writing to disk\n" ++
    "  -f, --force                Overwrite files that already exist\n"

/-- A script that completes the names of the commands in a shell. -/
def Shell.script (shell : Shell) : String :=
  let names := Text.join " " (CommandName.all.map CommandName.text ++ ["help"])
  match shell with
  | .bash => "complete -o default -W '" ++ names ++ "' " ++ programName ++ "\n"
  | .elvish =>
    "set edit:completion:arg-completer[" ++ programName ++ "] = \x7b|@words| put " ++ names ++
      " \x7d\n"
  | .fish => "complete -c " ++ programName ++ " -a '" ++ names ++ "'\n"
  | .powershell =>
    "Register-ArgumentCompleter -Native -CommandName " ++ programName ++
      " -ScriptBlock \x7b -split '" ++ names ++ "' \x7d\n"
  | .zsh => "#compdef " ++ programName ++ "\n_arguments '1:command:(" ++ names ++
      ")' '*:file:_files'\n"

/-- How use cases are generated, given a request, the settings and the package name. -/
def GenerateRequest.options (r : GenerateRequest) (settings : Config) (project : String) :
    GenerateOptions where
  mode := r.mode.getD settings.mode
  project
  repository := r.repository
  failurePath := settings.failurePath
  output := r.output.or settings.output
  dryRun := r.dryRun
  force := r.force

/-- How a generation of so many declaration files ended. -/
def endingOf (report : GenerationReport) (total : Nat) : Ending :=
  if report.hasFailures then .failed (.incomplete report.failures.length total) else .done

variable {m : Type → Type} [Monad m] [Host m]

/-- Generates use cases. Nothing is generated unless the settings are good and every path is
there. -/
def runGenerate (r : GenerateRequest) : m Outcome := do
  match ← Settings.load r.config with
  | .error problem => return .silent (.badSettings problem)
  | .ok settings =>
    match ← collectDeclarations r.paths with
    | .error failure => return .silent (.failed failure)
    | .ok declarations =>
      let project ← projectName r.project r.pubspec settings.fallbackPackage
      let report ← generate (r.options settings project) declarations
      return ⟨printAll report.events, endingOf report declarations.length⟩

/-- Lists methods. -/
def runList (path : Path) (json : Bool) : m Outcome := do
  match ← collectDeclarations [path] with
  | .error failure => return .silent (.failed failure)
  | .ok declarations =>
    match ← list declarations with
    | .error failure => return .silent (.failed failure)
    | .ok listing =>
      if json then return .text (listing.json.render ++ "\n")
      else return ⟨printAll listing.events, .done⟩

/-- Runs a command. -/
def runCommand : Command → m Outcome
  | .generate request => runGenerate request
  | .list path json => runList path json
  | .completions shell => return .text shell.script

/-- Runs the program with some arguments. -/
def run (args : List String) : m Outcome := do
  match parse args with
  | .error .help => return .text usageText
  | .error .version => return .text versionText
  | .error .misuse => return .silent .misused
  | .ok invocation => runCommand invocation.command

end UseCases.CommandLine
