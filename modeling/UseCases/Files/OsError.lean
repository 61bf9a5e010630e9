/-
Errors of the operating system, as far as file operations meet them.
-/
namespace UseCases.Files

/-- Why a file operation failed. -/
inductive OsError where
  | notFound
  | alreadyExists
  | notADirectory
  | isADirectory
  | nameTooLong
  | tooManyLinks
  /-- A path contains the character NUL. -/
  | nulInPath
  /-- A file is no UTF-8 text. -/
  | notText
  /-- Any other error, in the system's words. -/
  | other (text : String)
deriving Repr, DecidableEq

/-- The error in words, with the system's number for it. -/
def OsError.message : OsError → String
  | .notFound => "No such file or directory (os error 2)"
  | .alreadyExists => "File exists (os error 17)"
  | .notADirectory => "Not a directory (os error 20)"
  | .isADirectory => "Is a directory (os error 21)"
  | .nameTooLong => "File name too long (os error 36)"
  | .tooManyLinks => "Too many levels of symbolic links (os error 40)"
  | .nulInPath => "file name contained an unexpected NUL byte"
  | .notText => "stream did not contain valid UTF-8"
  | .other text => text

end UseCases.Files
