/-
The program on a machine: its files, its standard output and its standard error.

The log goes to standard error as well, from a level on that the command line chooses. A
directory cannot be listed here, so declaration files are to be named one by one.
-/
import UseCases.CommandLine.Run

namespace UseCases

open CommandLine Files

/-- The system's number for an error. -/
def errorNumber? : IO.Error → Option UInt32
  | .alreadyExists _ n _ | .otherError n _ | .resourceBusy n _ | .resourceVanished n _
  | .unsupportedOperation n _ | .hardwareFault n _ | .unsatisfiedConstraints n _
  | .illegalOperation n _ | .protocolError n _ | .timeExpired n _ | .interrupted _ n _
  | .noFileOrDirectory _ n _ | .invalidArgument _ n _ | .permissionDenied _ n _
  | .resourceExhausted _ n _ | .inappropriateType _ n _ | .noSuchThing _ n _ => some n
  | .unexpectedEof | .userError _ => none

/-- The error of a file operation. -/
def osError (e : IO.Error) : OsError :=
  match errorNumber? e with
  | some 2 => .notFound
  | some 17 => .alreadyExists
  | some 20 => .notADirectory
  | some 21 => .isADirectory
  | some 36 => .nameTooLong
  | some 40 => .tooManyLinks
  | _ => .other e.toString

/-- A computation on a machine that shows the log from a level on. -/
abbrev Machine := ReaderT Level IO

/-- What a file operation gives. -/
def attempt {α : Type} (act : IO α) : Machine (Except OsError α) := do
  try
    let value ← act
    return .ok value
  catch e => return .error (osError e)

/-- How much a level matters; less is more. -/
def Level.rank : Level → Nat
  | .error => 0
  | .warn => 1
  | .info => 2
  | .debug => 3

instance : Host Machine where
  read path := attempt (IO.FS.readBinFile path)
  kind? path := do
    match ← attempt (IO.FS.readBinFile path) with
    | .ok _ => return some .file
    | .error .isADirectory => return some .directory
    | .error _ => return none
  makeDirectory path := attempt (IO.FS.createDir path)
  write path content := attempt (IO.FS.writeBinFile path content)
  walk _ := return .error (.other "directories cannot be listed")
  log record := do
    if record.level.rank ≤ (← read).rank then
      IO.eprintln ("[" ++ record.level.name ++ "] " ++ record.text)

/-- What is printed at the end of a run that is not done. -/
def explanation : Ending → String
  | .done => ""
  | .failed failure => "Error: " ++ failure.message ++ "\n"
  | .badSettings problem => "Error: " ++ problem.code ++ ": " ++ problem.message ++ "\n"
  | .misused => usageText

/-- The least level of the log records that a command line asks for. -/
def thresholdFor (args : List String) : Level :=
  match parse args with
  | .ok invocation => invocation.threshold
  | .error _ => .warn

/-- Runs the program and gives its exit code. -/
def runOnMachine (args : List String) : IO UInt32 := do
  let outcome ← (CommandLine.run args : Machine CommandLine.Outcome).run (thresholdFor args)
  IO.print outcome.printed.out
  IO.eprint outcome.printed.err
  IO.eprint (explanation outcome.ending)
  return outcome.ending.exitCode.toUInt32

end UseCases

/-- The program. -/
def main (args : List String) : IO UInt32 :=
  UseCases.runOnMachine args
