/-
Log records: what the program tells about its work besides its results.
-/
namespace UseCases

/-- How much a log record matters. -/
inductive Level where
  | error
  | warn
  | info
  | debug
deriving Repr, DecidableEq

/-- The name a level is printed under. -/
def Level.name : Level → String
  | .error => "ERROR"
  | .warn => "WARN"
  | .info => "INFO"
  | .debug => "DEBUG"

/-- One log record. -/
structure LogRecord where
  level : Level
  text : String
deriving Repr, DecidableEq

end UseCases
