/-
Generated units: for each method a use case, and in professional mode a class that holds
its arguments.

A use case wraps the repository. Its `call` forwards every argument the way the repository
declares it: by position or by name, straight from its own parameters or out of the
arguments' holder.
-/
import UseCases.Declaration.Method
import UseCases.Generation.Mode
import UseCases.Generation.Naming
import UseCases.Generation.PackageUri

namespace UseCases.Generation

open Dart Declaration

/-- One generated file. -/
structure GeneratedUnit where
  /-- Relative to the output directory. -/
  fileName : String
  content : String
deriving Repr, DecidableEq

/-! ### Parameters and arguments -/

/-- The declarations of some parameters, separated by commas. -/
def declarations (parameters : List Parameter) : String :=
  Text.join ", " (parameters.map Parameter.declaration)

/-- The parameters as a parameter list: positional ones, then the `[…]` group, then the
braced group. -/
def parameterList (parameters : List Parameter) : String :=
  let positional := parameters.filter fun p => p.kind == .positional
  let optional := parameters.filter fun p => p.kind == .optionalPositional
  let named := parameters.filter fun p => p.kind.isNamed
  let optionalGroup := if optional.isEmpty then [] else ["[" ++ declarations optional ++ "]"]
  let namedGroup := if named.isEmpty then [] else ["\x7b" ++ declarations named ++ "\x7d"]
  Text.join ", " (positional.map Parameter.declaration ++ optionalGroup ++ namedGroup)

/-- The argument that passes `value` to a parameter. -/
def argument (p : Parameter) (value : String) : String :=
  if p.kind.isNamed then p.name ++ ": " ++ value else value

/-- The arguments of a call in which every parameter gets its value from `value`. -/
def arguments (parameters : List Parameter) (value : Parameter → String) : String :=
  Text.join ", " (parameters.map fun p => argument p (value p))

/-! ### The use case -/

/-- The body of `call`: it returns what the repository returns. A plain future of `void`
has nothing to return, so it is awaited. -/
def callMember (method : Method) (parameters invocation : String) : Callable :=
  let awaits := method.shape == .plainFuture && method.isVoid
  { name := "call"
    returnType := method.returnType
    call := .withParameters parameters
    isAsync := awaits
    isOverride := false
    body := .lines [(if awaits then "await " else "return ") ++ invocation ++ ";"] }

/-- The method `call` of a use case whose arguments' holder would be `params`. -/
def useCaseCall (method : Method) (field params : String) (mode : Mode) : Callable :=
  let parameters := match mode with
    | .simple => parameterList method.parameters
    | .professional => params ++ " params"
  let values := match mode with
    | .simple => arguments method.parameters fun p => p.name
    | .professional => arguments method.parameters fun p => "params." ++ p.name
  callMember method parameters (field ++ "." ++ method.name ++ "(" ++ values ++ ")")

/-- The class of a use case. -/
def useCaseClass (method : Method) (base repository : String) (mode : Mode) : ClassDefinition :=
  let field := repositoryField repository
  { name := useCaseType base
    superclass := none
    fields := [⟨repository, field⟩]
    constructor? := some ⟨useCaseType base, false, ["this." ++ field], []⟩
    methods := [useCaseCall method field (paramsType base) mode] }

/-- The imports of a use case. -/
def useCaseImports (method : Method) (base : String) (mode : Mode) (context : ImportContext) :
    List Import :=
  let failure :=
    if method.shape.isErrorUnion then
      [Import.package "dartz" "dartz.dart", context.failureImport]
    else []
  let params := if mode.hasParams then [Import.mk (fileName (paramsType base))] else []
  failure ++ context.declarationImport :: params

/-- The file of a use case. -/
def useCaseUnit (method : Method) (base repository : String) (mode : Mode)
    (context : ImportContext) : GeneratedUnit :=
  let library := (Library.empty.addImports (useCaseImports method base mode context)).add
    (useCaseClass method base repository mode).fragments
  ⟨fileName (useCaseType base), library.render .standard⟩

/-! ### The holder of the arguments -/

/-- The parameter of the holder's constructor that sets the field of `p`. A parameter that
callers may leave out keeps its default; a nullable one without a default may stay null. -/
def holderParameter (p : Parameter) : String :=
  let optional := p.kind.isOptional
  match p.default with
  | some value =>
    if optional then "this." ++ p.name ++ " = " ++ value else "required this." ++ p.name
  | none =>
    if optional && Text.endsWith ['?'] p.type.toList then "this." ++ p.name
    else "required this." ++ p.name

/-- The getter that lists the fields that values are compared by. -/
def propsGetter (parameters : List Parameter) : Callable :=
  { name := "props"
    returnType := "List<Object?>"
    call := .getter
    isAsync := false
    isOverride := true
    body := .arrow ("[" ++ Text.join ", " (parameters.map Parameter.name) ++ "]") }

/-- The class that holds the arguments. -/
def paramsClass (base : String) (parameters : List Parameter) : ClassDefinition :=
  { name := paramsType base
    superclass := some "Equatable"
    fields := parameters.map fun p => ⟨p.type, p.name⟩
    constructor? := some ⟨paramsType base, true, [], parameters.map holderParameter⟩
    methods := [propsGetter parameters] }

/-- The file of the class that holds the arguments. It needs the repository's file for the
types of the fields, if there are any. -/
def paramsUnit (base : String) (parameters : List Parameter) (context : ImportContext) :
    GeneratedUnit :=
  let types := if parameters.isEmpty then [] else [context.declarationImport]
  let library := (Library.empty.addImports (Import.package "equatable" "equatable.dart" :: types)).add
    (paramsClass base parameters).fragments
  ⟨fileName (paramsType base), library.render .standard⟩

/-! ### The units of a method -/

/-- The units of a method, whose generated types are named after `base`. -/
def units (method : Method) (base repository : String) (mode : Mode) (context : ImportContext) :
    List GeneratedUnit :=
  let params := if mode.hasParams then [paramsUnit base method.parameters context] else []
  useCaseUnit method base repository mode context :: params

end UseCases.Generation
