/-
What is used where neither the command line nor the settings say anything.
-/
namespace UseCases.Generation

/-- The package name. -/
def defaultPackage : String := "my_app"

/-- The file of the `Failure` type, inside `lib`. -/
def defaultFailurePath : String := "core/error/failures.dart"

end UseCases.Generation
