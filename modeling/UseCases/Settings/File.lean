/-
The settings file of a project.
-/
import UseCases.Files.Host
import UseCases.Settings.Config

namespace UseCases.Settings

open Files

/-- The name of the settings file. -/
def fileName : String := "casegen.toml"

variable {m : Type → Type} [Monad m] [Host m]

/-- The settings in a file. -/
def read (path : Path) : m (Except Problem Config) := do
  match ← readText path with
  | .error e => return .error (.unreadable path e)
  | .ok text => return Config.read ⟨text, path⟩

/-- The settings in a file, or the default ones when there is no file. -/
def load (path : Path) : m (Except Problem Config) := do
  if ← pathExists path then
    Host.log ⟨.debug, "loading config from " ++ path⟩
    read path
  else
    Host.log ⟨.debug, "no config at " ++ path ++ ", using defaults"⟩
    return .ok .default

end UseCases.Settings
