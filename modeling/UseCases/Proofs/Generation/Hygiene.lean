/-
Which names meet in a generated class.

The names in a generated class come from two places.  The field of a use case is named after the
repository class, and the getter of a holder is always named `props`; all other names are those of the
parameters, and they are written as they stand in the source.  So two names meet exactly if a parameter
has one of the two that the generator gives: it then hides the repository from the body of `call`, or
it stands beside the getter as a second member of its name.

Nothing keeps a parameter from having such a name, and no name is changed to make room for another.
-/
import UseCases.Proofs.Declaration.MethodParts
import UseCases.Proofs.Declaration.RepositoryName
import UseCases.Proofs.Generation.Naming
import UseCases.Proofs.Generation.UseCase

namespace UseCases.Generation

open Dart Text Declaration

/-! ### Members and scopes -/

/-- The names of the members of a class: its fields, and its methods and getters. -/
def memberNames (c : ClassDefinition) : List String :=
  c.fields.map Field.name ++ c.methods.map Callable.name

/-- What a name in the body of a method can stand for. -/
inductive Meaning where
  | parameter
  | field
deriving Repr, DecidableEq

/-- The names that the body of a method sees, the innermost first: a parameter hides a field. -/
def bodyScope (parameters : List Parameter) (c : ClassDefinition) : List (String × Meaning) :=
  (parameters.map fun p => (p.name, .parameter)) ++ c.fields.map fun f => (f.name, .field)

/-- What a row calls a method of: the identifier before the dot, after `return` or `await`. -/
def receiver? (row : List Char) : Option (List Char) := do
  let called ← (after? "    return ".toList row).or (after? "    await ".toList row)
  let receiver ← readIdentifier? called
  if receiver.rest.head? = some '.' then some receiver.token else none

/-- A field is seen exactly if no parameter has its name. -/
theorem lookup_bodyScope {parameters : List Parameter} {c : ClassDefinition} {f : Field}
    (h : c.fields = [f]) :
    (bodyScope parameters c).lookup f.name = some .field ↔
      f.name ∉ parameters.map Parameter.name := by
  rw [bodyScope, h, List.map_singleton]
  induction parameters with
  | nil => simp
  | cons p ps ih =>
      rw [List.map_cons, List.cons_append, List.lookup_cons, List.map_cons, List.mem_cons, not_or,
        ← ih]
      cases hp : f.name == p.name with
      | true => simp [eq_of_beq hp]
      | false => simp [ne_of_beq_false hp]

/-! ### The receiver of the forwarded call -/

/-- **The body of a use case calls through the field of its repository.** -/
theorem receiver?_statementRow {repository : String} (h : isIdentifier repository.toList = true)
    (method : Method) (mode : Mode) :
    receiver? (statementRow method repository mode).toList =
      some (repositoryField repository).toList := by
  have hread : ∀ rest, readIdentifier? ((repositoryField repository).toList ++ '.' :: rest) =
      some ⟨(repositoryField repository).toList, '.' :: rest⟩ :=
    fun rest => readIdentifier?_append (isIdentifier_camelCase h) (by rintro c ⟨rfl⟩; decide)
  obtain ⟨keyword, hkeyword, htext⟩ : ∃ keyword ∈ ["    return ", "    await "],
      (statementRow method repository mode).toList = keyword.toList ++
        ((repositoryField repository).toList ++
          '.' :: (method.name ++ "(" ++ forwarded method mode ++ ");").toList) := by
    unfold statementRow
    split
    · exact ⟨"    await ", by simp, by simp⟩
    · exact ⟨"    return ", by simp, by simp⟩
  have hafter : ∀ rest, (after? "    return ".toList (keyword.toList ++ rest)).or
      (after? "    await ".toList (keyword.toList ++ rest)) = some rest := by
    intro rest
    rcases List.mem_pair.mp hkeyword with rfl | rfl
    · rw [after?_append, Option.some_or]
    · rw [after?_append]
      rfl
  rw [receiver?, htext, hafter, Option.bind_eq_bind, Option.bind_some, hread]
  rfl

/-- The file of a use case ends with the method `call`, which has one statement. -/
theorem useCase_ends_in_call (method : Method) (base repository : String) (mode : Mode)
    (context : ImportContext) :
    ∃ front, (useCaseUnit method base repository mode context).content.toList =
      front ++ rowsText [callRow method base repository mode,
        statementRow method repository mode, "  \x7d", "\x7d"] := by
  refine ⟨rowsText ((fileImports method base mode context).map Import.directive ++ "" ::
    openingRows base repository), ?_⟩
  rw [useCase_rows, ← rowsText_append, List.append_assoc, List.cons_append]

/-! ### Classes of a method -/

/-- The names in a holder: the parameters, and the getter. -/
theorem memberNames_paramsClass (base : String) (parameters : List Parameter) :
    memberNames (paramsClass base parameters) = parameters.map Parameter.name ++ ["props"] := by
  rw [memberNames, paramsClass, List.map_map]
  rfl

/-- **Generated classes are hygienic exactly if no parameter has a name that the generator gives.**
For each method that a source declares, and the repository class that is found in the source, all names
are identifiers.  The simple use case has one field, which its constructor sets and which its body calls
through, and the name of that field stands for it in the body unless a parameter has the name.  And if
the parameters have different names, the members of the holder have as well, unless a parameter is
named `props`. -/
theorem generated_classes_hygienic_iff {source repository : String} {method : Method}
    (hmethod : method ∈ (extract source).methods)
    (hrepository : repositoryName? source = some repository)
    (hdistinct : (method.parameters.map Parameter.name).Nodup) (context : ImportContext) :
    let names := method.parameters.map Parameter.name
    let field := repositoryField repository
    let useCase := useCaseClass method method.name repository .simple
    let holder := paramsClass method.name method.parameters
    (∀ name ∈ field :: names, isIdentifier name.toList = true) ∧
    (useCase.fields = [⟨repository, field⟩] ∧
      useCase.constructor?.map Constructor.positional = some ["this." ++ field] ∧
      (∃ call, useCase.methods = [call] ∧ call.call = .withParameters (parameterList method.parameters) ∧
        ∃ front statement,
          (useCaseUnit method method.name repository .simple context).content.toList =
            front ++ rowsText ["  " ++ call.signature ++ " \x7b", statement, "  \x7d", "\x7d"] ∧
          receiver? statement.toList = some field.toList) ∧
      ((bodyScope method.parameters useCase).lookup field = some .field ↔ field ∉ names)) ∧
    memberNames holder = names ++ ["props"] ∧ ((memberNames holder).Nodup ↔ "props" ∉ names) := by
  intro names field useCase holder
  have hidentifier := (isRepository_of_repositoryName? hrepository).identifier
  obtain ⟨-, -, -, hparameters, -⟩ := extract_wellFormed hmethod
  refine ⟨?identifiers, ⟨rfl, rfl, ⟨_, rfl, rfl, ?rows⟩, lookup_bodyScope (f := ⟨repository, field⟩) rfl⟩,
    memberNames_paramsClass _ _, ?distinct⟩
  case identifiers =>
    intro name hname
    rcases List.mem_cons.mp hname with rfl | hname
    · exact isIdentifier_camelCase hidentifier
    · obtain ⟨p, hp, rfl⟩ := List.mem_map.mp hname
      exact (hparameters p hp).name
  case rows =>
    obtain ⟨front, hrows⟩ := useCase_ends_in_call method method.name repository .simple context
    exact ⟨front, statementRow method repository .simple, hrows,
      receiver?_statementRow hidentifier method .simple⟩
  case distinct =>
    rw [memberNames_paramsClass, List.nodup_append_comm, List.singleton_append, List.nodup_cons]
    exact and_iff_left hdistinct

/-- A source whose method has parameters of all kinds. -/
def userSource : String :=
  "abstract class UserRepository \x7b\n" ++
    "  Future<void> merge(User user, \x7brequired int other, bool keep = true\x7d);\n\x7d\n"

theorem userSource_hygienic :
    ∃ method ∈ (extract userSource).methods,
      repositoryName? userSource = some "UserRepository" ∧
      (method.parameters.map Parameter.name).Nodup ∧
      (bodyScope method.parameters (useCaseClass method method.name "UserRepository" .simple)).lookup
        "userRepository" = some .field ∧
      (memberNames (paramsClass method.name method.parameters)).Nodup := by
  have hmethods : ∃ method ∈ (extract userSource).methods,
      (method.parameters.map Parameter.name) = ["user", "other", "keep"] := by
    decide +kernel
  have hrepository : repositoryName? userSource = some "UserRepository" := by decide +kernel
  obtain ⟨method, hmethod, hnames⟩ := hmethods
  have hdistinct : (method.parameters.map Parameter.name).Nodup := by
    rw [hnames]
    decide
  obtain ⟨-, ⟨-, -, -, hfield⟩, -, hmembers⟩ := generated_classes_hygienic_iff hmethod hrepository
    hdistinct ⟨"shop", "lib/user_repository.dart", "core/error/failures.dart"⟩
  have hname : repositoryField "UserRepository" = "userRepository" := by decide
  rw [hnames, hname] at hfield
  rw [hnames] at hmembers
  exact ⟨method, hmethod, hrepository, hdistinct, hfield.mpr (by decide), hmembers.mpr (by decide)⟩

/-- A parameter that is named like the field of the repository, and one that is named like the getter
of a holder. -/
theorem parameters_meet_generated_names :
    (let source := "abstract class UserRepository \x7b\n" ++
      "  Future<void> merge(UserRepository userRepository);\n\x7d\n"
    repositoryName? source = some "UserRepository" ∧
      ∃ method ∈ (extract source).methods, (method.parameters.map Parameter.name).Nodup ∧
        (bodyScope method.parameters (useCaseClass method method.name "UserRepository" .simple)).lookup
          (repositoryField "UserRepository") = some .parameter) ∧
    (let source := "abstract class UserRepository \x7b\n" ++
      "  Future<void> save(\x7bString props\x7d);\n\x7d\n"
    repositoryName? source = some "UserRepository" ∧
      ∃ method ∈ (extract source).methods, (method.parameters.map Parameter.name).Nodup ∧
        ¬(memberNames (paramsClass method.name method.parameters)).Nodup) := by
  decide +kernel

end UseCases.Generation
