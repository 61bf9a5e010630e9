/-
The rows of an arguments' holder.

A holder is a class with one field for each parameter, one constructor that sets them and one
getter that lists them.  All three are written from the same list of parameters.
-/
import UseCases.Generation.Unit
import UseCases.Proofs.Dart.Layout

namespace UseCases.Generation

open Dart Text Declaration

/-- The imports that the file of a holder ends up with. -/
def holderImports (parameters : List Parameter) (context : ImportContext) : List Import :=
  (Library.empty.addImports (Import.package "equatable" "equatable.dart" ::
    if parameters.isEmpty then [] else [context.declarationImport])).imports

/-- The row of a field. -/
def fieldRow (p : Parameter) : String :=
  "  " ++ Field.declaration ⟨p.type, p.name⟩

/-- The row of the constructor. -/
def constructorRow (base : String) (parameters : List Parameter) : String :=
  "  " ++ Constructor.declaration ⟨paramsType base, true, [], parameters.map holderParameter⟩

/-- The row of the getter that lists the fields. -/
def propsRow (parameters : List Parameter) : String :=
  "  " ++ ("List<Object?> get props => " ++ ("[" ++ join ", " (parameters.map Parameter.name) ++ "]")
    ++ ";")

/-- The row that opens the class. -/
def holderHeader (base : String) : String :=
  "class " ++ paramsType base ++ " extends " ++ "Equatable" ++ " \x7b"

/-- The rows of the class after the one that opens it. -/
def holderRows (base : String) (parameters : List Parameter) : List String :=
  parameters.map fieldRow ++ (if parameters.isEmpty then [] else [""])
    ++ [constructorRow base parameters, "", "  @override", propsRow parameters, "\x7d"]

/-- The rows of the file of a holder. -/
def holderFile (base : String) (parameters : List Parameter) (context : ImportContext) :
    List String :=
  (holderImports parameters context).map Import.directive
    ++ "" :: holderHeader base :: holderRows base parameters

/-- **The rows of a holder.** -/
theorem holder_rows (base : String) (parameters : List Parameter) (context : ImportContext) :
    (paramsUnit base parameters context).content.toList
      = rowsText (holderFile base parameters context) := by
  have hmembers : rowsOf .standard 1
      ([.line (Constructor.declaration ⟨paramsType base, true, [], parameters.map holderParameter⟩)]
        ++ .blank :: (propsGetter parameters).fragments)
      = [constructorRow base parameters, "", "  @override", propsRow parameters] := by
    simp [rowsOf, Fragment.rows, Callable.fragments, Callable.signature, propsGetter,
      constructorRow, propsRow, Page.indentation, Indent.unit, Indent.standard]
  have hrows : rowsOf .standard 1 (separated (paramsClass base parameters).groups) ++ ["\x7d"]
      = holderRows base parameters := by
    cases parameters with
    | nil =>
        show rowsOf .standard 1 ([.line _] ++ .blank :: (propsGetter []).fragments) ++ _ = _
        rw [hmembers]
        rfl
    | cons p ps =>
        have hfields : ((p :: ps).map fun q => Dart.Field.mk q.type q.name).flatMap Dart.Field.fragments
            = ((p :: ps).map fun q => Field.declaration ⟨q.type, q.name⟩).map .line := by
          rw [List.flatMap_map, List.map_map]
          exact List.map_eq_flatMap.symm
        show rowsOf .standard 1 (((p :: ps).map fun q => Dart.Field.mk q.type q.name).flatMap
          Dart.Field.fragments ++ .blank :: ([.line _] ++ .blank :: (propsGetter (p :: ps)).fragments))
            ++ _ = _
        rw [hfields, rowsOf_append, rowsOf_lines, rowsOf, hmembers]
        simp [holderRows, Fragment.rows, fieldRow, Page.indentation, Indent.unit, Indent.standard]
  have hheader : (paramsClass base parameters).header = holderHeader base := rfl
  show (((Library.empty.addImports (Import.package "equatable" "equatable.dart" ::
    if parameters.isEmpty then [] else [context.declarationImport])).add
      (paramsClass base parameters).fragments).render .standard).toList = _
  rw [rows_library .standard (List.cons_ne_nil _ _), String.toList_ofList, hrows, hheader]
  rfl

end UseCases.Generation
