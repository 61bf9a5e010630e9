/-
The rows of a use case.

The file of a use case has the same shape for every method and in both modes: imports, a blank
row, and a class with one field, one constructor and one method.  What depends on the method are
the row that opens `call` and the statement in it.
-/
import UseCases.Generation.Unit
import UseCases.Proofs.Dart.Layout

namespace UseCases.Generation

open Dart Text Declaration

/-- The imports that the file of a use case ends up with. -/
def fileImports (method : Method) (base : String) (mode : Mode) (context : ImportContext) :
    List Import :=
  (Library.empty.addImports (useCaseImports method base mode context)).imports

/-- The member `call` of a use case. -/
def callOf (method : Method) (base repository : String) (mode : Mode) : Callable :=
  useCaseCall method (repositoryField repository) (paramsType base) mode

/-- The arguments that `call` passes on. -/
def forwarded (method : Method) (mode : Mode) : String :=
  match mode with
  | .simple => arguments method.parameters fun p => p.name
  | .professional => arguments method.parameters fun p => "params." ++ p.name

/-- The row that opens `call`. -/
def callRow (method : Method) (base repository : String) (mode : Mode) : String :=
  "  " ++ (callOf method base repository mode).signature ++ " \x7b"

/-- The statement in `call`. -/
def statementRow (method : Method) (repository : String) (mode : Mode) : String :=
  "    " ++ (if method.shape == .plainFuture && method.isVoid then "await " else "return ")
    ++ repositoryField repository ++ "." ++ method.name ++ "(" ++ forwarded method mode ++ ");"

/-- The rows of the class before `call`. -/
def openingRows (base repository : String) : List String :=
  let field := repositoryField repository
  ["class " ++ useCaseType base ++ " \x7b",
    "  " ++ Field.declaration ⟨repository, field⟩,
    "",
    "  " ++ Constructor.declaration ⟨useCaseType base, false, ["this." ++ field], []⟩,
    ""]

theorem useCaseImports_ne_nil (method : Method) (base : String) (mode : Mode)
    (context : ImportContext) : useCaseImports method base mode context ≠ [] := by
  simp [useCaseImports]

theorem mem_fileImports {method : Method} {base : String} {mode : Mode} {context : ImportContext}
    {i : Import} :
    i ∈ fileImports method base mode context ↔ i ∈ useCaseImports method base mode context := by
  rw [fileImports, mem_imports_addImports]
  simp [Library.empty]

/-- **The rows of a use case.** -/
theorem useCase_rows (method : Method) (base repository : String) (mode : Mode)
    (context : ImportContext) :
    (useCaseUnit method base repository mode context).content.toList
      = rowsText ((fileImports method base mode context).map Import.directive ++ ""
          :: (openingRows base repository ++ callRow method base repository mode
            :: [statementRow method repository mode, "  \x7d", "\x7d"])) := by
  have hrows : rowsOf .standard 1 (separated (useCaseClass method base repository mode).groups)
      = (openingRows base repository).tail ++ callRow method base repository mode
          :: [statementRow method repository mode, "  \x7d"] := by
    cases mode <;>
      simp [useCaseClass, ClassDefinition.groups, separated, rowsOf, Fragment.rows,
        Field.fragments, Constructor.fragments, Callable.fragments, useCaseCall, callMember,
        Fragment.braced, openingRows, callRow, callOf, statementRow, forwarded,
        String.append_assoc, Page.indentation, Indent.unit, Indent.standard]
  have hheader : (useCaseClass method base repository mode).header
      = "class " ++ useCaseType base ++ " \x7b" := rfl
  show (((Library.empty.addImports (useCaseImports method base mode context)).add
    (useCaseClass method base repository mode).fragments).render .standard).toList = _
  rw [rows_library .standard (useCaseImports_ne_nil method base mode context),
    String.toList_ofList, hrows, hheader]
  simp [fileImports, openingRows]

end UseCases.Generation
