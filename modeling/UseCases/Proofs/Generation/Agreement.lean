/-
The wrapper and the holder agree.

In professional mode a method becomes two files, and the parameters are written four times: three
times in the holder, and in the call of the wrapper.  The arguments of the call are read back as the
lists of the holder are, and all four turn out to be the names of the parameters in their order.
-/
import UseCases.Proofs.Dart.CodeRows
import UseCases.Proofs.Generation.HolderNames
import UseCases.Proofs.Generation.PackageUri
import UseCases.Proofs.Generation.UseCase

namespace UseCases.Generation

open Dart Text Declaration

/-! ### Readers -/

/-- The entries between the last parentheses of a file. -/
def lastArguments (text : String) : List (List Char) :=
  splitTopLevel ',' ((text.toList.reverse.dropWhile (· != ')')).tail.takeWhile (· != '(')).reverse

/-- The name of the field of `params` that an argument passes, and whether it passes it by that
name. -/
def forwardedName? (argument : List Char) : Option (List Char × Bool) :=
  match after? "params.".toList argument with
  | some name => some (name, false)
  | none => do
    let name ← readIdentifier? argument
    let value ← after? ": params.".toList name.rest
    if value = name.token then some (value, true) else none

/-! ### Rows without newlines -/

theorem newline_packageUri {package path : String} (hpackage : '\n' ∉ package.toList)
    (hpath : '\n' ∉ path.toList) : '\n' ∉ (packageUri package path).toList := by
  have hlibrary : '\n' ∉ libraryPath path.toList := by
    intro hmem
    obtain ⟨c, hc, hslash⟩ := List.mem_map.mp ((libraryPath_suffix _).mem hmem)
    split at hslash
    · cases hslash
    · exact hpath (hslash ▸ hc)
  have huri : '\n' ∉ ("package:" ++ package ++ "/").toList ++ libraryPath path.toList := by
    simp [hpackage, hlibrary]
  rw [packageUri, String.toList_ofList]
  unfold withExtension
  split
  · exact huri
  · rw [List.mem_append, not_or]
    exact ⟨huri, by decide⟩

/-- A context whose paths stand on one line each. -/
structure ImportContext.IsOneLine (context : ImportContext) : Prop where
  package : '\n' ∉ context.package.toList
  declaration : '\n' ∉ context.declaration.toList
  failure : '\n' ∉ context.failure.toList

theorem newline_identifier {name : List Char} (h : isIdentifier name = true) : '\n' ∉ name :=
  not_mem_identifier h (by decide)

theorem newline_fileName {type : String} (h : isIdentifier type.toList = true) :
    '\n' ∉ (fileName type).toList := fun hmem =>
  absurd (List.all_eq_true.mp (all_isFileChar_fileName h) '\n' hmem) (by decide)

theorem newline_useCaseImports {method : Method} {base : String} {context : ImportContext}
    (hbase : isIdentifier base.toList = true) (hcontext : context.IsOneLine) :
    ∀ i ∈ useCaseImports method base .professional context, '\n' ∉ i.directive.toList := by
  have hdeclaration := newline_packageUri hcontext.package hcontext.declaration
  have hfailure := newline_packageUri hcontext.package hcontext.failure
  have hparams := newline_fileName (isIdentifier_paramsType hbase)
  intro i hi
  unfold useCaseImports at hi
  rcases List.mem_append.mp hi with hi | hi
  · split at hi
    · simp only [List.mem_cons, List.not_mem_nil, or_false] at hi
      rcases hi with rfl | rfl
      · decide
      · exact oneLine_directive hfailure
    · cases hi
  · rcases List.mem_cons.mp hi with rfl | hi
    · exact oneLine_directive hdeclaration
    · split at hi
      · rw [List.mem_singleton.mp hi]
        exact oneLine_directive hparams
      · cases hi

theorem newline_holderParameter {p : Parameter} (h : IsHeld p) :
    '\n' ∉ (holderParameter p).toList := by
  obtain ⟨lead, tail, htext, hlead, htail⟩ := toList_holderParameter p
  have hname := newline_identifier h.name
  rw [htext, List.mem_append, List.mem_append]
  rintro ((hmem | hmem) | hmem)
  · rcases hlead with rfl | rfl <;> exact absurd hmem (by decide)
  · exact hname hmem
  · rcases htail with rfl | ⟨value, hvalue, rfl⟩
    · cases hmem
    · rcases List.mem_append.mp hmem with hmem | hmem
      · exact absurd hmem (by decide)
      · exact h.default_oneLine value hvalue hmem

theorem newline_holderFile {base : String} {parameters : List Parameter} {context : ImportContext}
    (hbase : isIdentifier base.toList = true) (hcontext : context.IsOneLine)
    (hheld : ∀ p ∈ parameters, IsHeld p) :
    ∀ row ∈ holderFile base parameters context, '\n' ∉ row.toList := by
  have hclass := newline_identifier (isIdentifier_paramsType hbase)
  have hdeclaration := newline_packageUri hcontext.package hcontext.declaration
  have hsetters : '\n' ∉ (join ", " (parameters.map holderParameter)).toList := by
    refine oneLine_join fun t ht => ?_
    obtain ⟨p, hp, rfl⟩ := List.mem_map.mp ht
    exact newline_holderParameter (hheld p hp)
  have hgroup : '\n' ∉ (setterGroup parameters).toList := by
    unfold setterGroup
    split
    · decide
    · simp [hsetters]
  have hnames : '\n' ∉ (join ", " (parameters.map Parameter.name)).toList := by
    refine oneLine_join fun t ht => ?_
    obtain ⟨p, hp, rfl⟩ := List.mem_map.mp ht
    exact newline_identifier (hheld p hp).name
  intro row hrow
  rcases List.mem_append.mp hrow with hrow | hrow
  · obtain ⟨i, hi, rfl⟩ := List.mem_map.mp hrow
    rw [holderImports, mem_imports_addImports] at hi
    rcases hi with hi | hi
    · cases hi
    · rcases List.mem_cons.mp hi with rfl | hi
      · decide
      · split at hi
        · cases hi
        · rw [List.mem_singleton.mp hi]
          exact oneLine_directive hdeclaration
  · simp only [holderRows, List.mem_cons, List.mem_append, List.not_mem_nil, or_false] at hrow
    rcases hrow with rfl | rfl | (hrow | hrow) | rfl | rfl | rfl | rfl | rfl
    · decide
    · simp [holderHeader, hclass]
    · obtain ⟨p, hp, rfl⟩ := List.mem_map.mp hrow
      simp [fieldRow, Field.declaration, (hheld p hp).type_oneLine,
        newline_identifier (hheld p hp).name]
    · split at hrow
      · cases hrow
      · rw [List.mem_singleton.mp hrow]
        decide
    · simp [constructorRow, constructor_declaration, hclass, hgroup]
    · decide
    · decide
    · simp [propsRow, hnames]
    · decide

/-! ### The call of the wrapper -/

theorem toList_argument (p : Parameter) :
    (argument p ("params." ++ p.name)).toList
      = if p.kind.isNamed then p.name.toList ++ (": params.".toList ++ p.name.toList)
        else "params.".toList ++ p.name.toList := by
  unfold argument
  split <;> simp

/-- An argument is a field of `params`, passed by its name or by position. -/
theorem forwardedName?_argument {p : Parameter} (h : isIdentifier p.name.toList = true) :
    forwardedName? (argument p ("params." ++ p.name)).toList
      = some (p.name.toList, p.kind.isNamed) := by
  rw [toList_argument]
  cases hnamed : p.kind.isNamed with
  | false =>
      simp only [Bool.false_eq_true, if_false]
      rw [forwardedName?, after?_append]
  | true =>
      simp only [if_true]
      have hnone : after? "params.".toList (p.name.toList ++ (": params.".toList ++ p.name.toList))
          = none := by
        rw [Option.eq_none_iff_forall_ne_some]
        intro rest hafter
        -- Up to its first character that is none of an identifier, the argument is the name.
        have htext := after?_eq_some.mp hafter
        have hleft : (p.name.toList ++ (": params.".toList ++ p.name.toList)).takeWhile
            isIdentifierChar = p.name.toList :=
          takeWhile_append_stop (forall_mem_identifier h) (by rintro c ⟨rfl⟩; decide)
        have hright : ("params".toList ++ '.' :: rest).takeWhile isIdentifierChar
            = "params".toList :=
          takeWhile_append_stop (List.all_eq_true.mp (by decide)) (by rintro c ⟨rfl⟩; decide)
        have hname : p.name.toList = "params".toList := by
          have hdot : "params.".toList ++ rest = "params".toList ++ '.' :: rest := by simp
          rw [← hleft, htext, ← hright, hdot]
        rw [hname] at htext
        simp at htext
      have hread : readIdentifier? (p.name.toList ++ (": params.".toList ++ p.name.toList))
          = some ⟨p.name.toList, ": params.".toList ++ p.name.toList⟩ :=
        readIdentifier?_append h (by rintro c ⟨rfl⟩; decide)
      rw [forwardedName?, hnone]
      simp only [hread, Option.bind_eq_bind, Option.bind_some, after?_append, if_true]

theorem trim_argument {p : Parameter} (h : isIdentifier p.name.toList = true) :
    trim (argument p ("params." ++ p.name)).toList = (argument p ("params." ++ p.name)).toList := by
  obtain ⟨c, cs, hname, hhead, -⟩ := exists_of_isName h
  rw [toList_argument]
  refine trim_eq_self (fun d hd => ?_) fun d hd => ?_
  · split at hd
    · rw [hname] at hd
      cases hd
      exact isBlank_of_isHead hhead
    · cases hd
      decide
  · have hlast : p.name.toList.getLast? = some d := by
      split at hd
      · rwa [← List.append_assoc, List.getLast?_append_of_ne_nil _ (by simp [hname])] at hd
      · rwa [List.getLast?_append_of_ne_nil _ (by simp [hname])] at hd
    exact isBlank_of_isIdentifierChar (forall_mem_identifier h d (List.mem_of_getLast? hlast))

theorem isEntry_argument {p : Parameter} (h : isIdentifier p.name.toList = true) :
    IsEntry ',' (argument p ("params." ++ p.name)).toList where
  visible := by
    rw [trim_argument h, toList_argument]
    split <;> simp
  nested := by
    have hname : isNested (fun c => c != ',') p.name.toList = true :=
      isNested_identifier h fun c hc => by simpa using ne_of_forall hc (d := ',') (by decide)
    rw [toList_argument]
    split
    · exact isNested_append hname (isNested_append (by decide) hname)
    · exact isNested_append (by decide) hname

/-- No parenthesis stands in an argument. -/
theorem all_forwarded_professional {parameters : List Parameter}
    (h : ∀ p ∈ parameters, isIdentifier p.name.toList = true) :
    (arguments parameters fun p => "params." ++ p.name).toList.all (· != '(') = true := by
  refine all_join (by decide) fun t ht => ?_
  obtain ⟨p, hp, rfl⟩ := List.mem_map.mp ht
  have hname : p.name.toList.all (· != '(') = true := List.all_eq_true.mpr fun c hc => by
    simpa using ne_of_forall (forall_mem_identifier (h p hp) c hc) (d := '(') (by decide)
  rw [toList_argument]
  split
  · rw [List.all_append, List.all_append, hname]
    decide
  · rw [List.all_append, hname]
    decide

/-- The rows of a wrapper from the one that opens `call` on. -/
def callRows (method : Method) (base repository : String) : List String :=
  [callRow method base repository .professional, statementRow method repository .professional,
    "  \x7d", "\x7d"]

theorem wrapper_rows (method : Method) (base repository : String) (context : ImportContext) :
    (useCaseUnit method base repository .professional context).content.toList
      = rowsText ((fileImports method base .professional context).map Import.directive)
        ++ (rowsText ("" :: openingRows base repository)
          ++ rowsText (callRows method base repository)) := by
  rw [useCase_rows, ← rowsText_append, ← rowsText_append]
  simp [callRows]

/-- **The arguments of the call are the fields of `params`.** -/
theorem lastArguments_wrapper {method : Method} {base repository : String}
    {context : ImportContext} (h : ∀ p ∈ method.parameters, isIdentifier p.name.toList = true) :
    (lastArguments (useCaseUnit method base repository .professional context).content).map
        forwardedName?
      = method.parameters.map fun p => some (p.name.toList, p.kind.isNamed) := by
  have hcall : ∃ before, (useCaseUnit method base repository .professional context).content.toList
      = before ++ '(' :: ((forwarded method .professional).toList
        ++ ')' :: ";\n  \x7d\n\x7d\n".toList) := by
    rw [wrapper_rows]
    refine ⟨rowsText ((fileImports method base .professional context).map Import.directive)
      ++ (rowsText ("" :: openingRows base repository)
        ++ ((callRow method base repository .professional).toList ++ '\n' :: ("    "
          ++ (if method.shape == .plainFuture && method.isVoid then "await " else "return ")
          ++ repositoryField repository ++ "." ++ method.name).toList)), ?_⟩
    simp [callRows, rowsText, statementRow, List.append_assoc]
  obtain ⟨before, hbefore⟩ := hcall
  have hopen : ∀ c ∈ (forwarded method .professional).toList.reverse, (c != '(') = true := by
    intro c hc
    exact List.all_eq_true.mp (all_forwarded_professional h) c (List.mem_reverse.mp hc)
  have hreverse : (before ++ '(' :: ((forwarded method .professional).toList
      ++ ')' :: ";\n  \x7d\n\x7d\n".toList)).reverse
      = ";\n  \x7d\n\x7d\n".toList.reverse ++ ')' :: ((forwarded method .professional).toList.reverse
        ++ '(' :: before.reverse) := by
    simp
  have hentries : ∀ t ∈ method.parameters.map fun p => argument p ("params." ++ p.name),
      IsEntry ',' t.toList := by
    intro t ht
    obtain ⟨p, hp, rfl⟩ := List.mem_map.mp ht
    exact isEntry_argument (h p hp)
  have harguments : splitTopLevel ',' (forwarded method .professional).toList
      = (method.parameters.map fun p => argument p ("params." ++ p.name)).map fun t =>
        trim t.toList := splitTopLevel_join hentries
  rw [lastArguments, hbefore, hreverse,
    dropWhile_append_stop (List.all_eq_true.mp (by decide)) (by rintro c ⟨rfl⟩; rfl),
    List.tail_cons,
    takeWhile_append_stop hopen (by rintro c ⟨rfl⟩; rfl), List.reverse_reverse, harguments,
    List.map_map, List.map_map]
  refine List.map_congr_left fun p hp => ?_
  rw [Function.comp_apply, Function.comp_apply, trim_argument (h p hp),
    forwardedName?_argument (h p hp)]

/-- The one parameter of `call` has the class of the holder as its type. -/
theorem entries_params {base : String} (hbase : isIdentifier base.toList = true) :
    entries (paramsType base ++ " params").toList
      = [.accepted ⟨paramsType base, "params", .positional, none⟩] := by
  have hclass := isIdentifier_paramsType hbase
  obtain ⟨c, cs, htext, hhead, hrest⟩ := exists_of_isName hclass
  have hname : isName isTypeChar (paramsType base).toList = true := by
    rw [htext, isName, hhead, Bool.true_and, List.all_eq_true]
    exact fun d hd => isTypeChar_of_isIdentifierChar (hrest d hd)
  have hmodifier : (paramsType base).toList ∉ modifiers := by
    intro hmem
    have hlast : (paramsType base).toList.getLast? = some 's' := by simp [paramsType]
    have hnone : ∀ word ∈ modifiers, word.getLast? ≠ some 's' := by decide
    exact hnone _ hmem hlast
  have hparameter : IsParameter ⟨paramsType base, "params", .positional, none⟩ :=
    ⟨show isIdentifier "params".toList = true by decide,
      ⟨⟨(paramsType base).toList, none, false, hname, by simp, by simp⟩,
      by simp [TypeToken.text, TypeToken.argumentText, TypeToken.mark], rfl, rfl, hmodifier⟩,
      by rintro value ⟨⟩⟩
  have hlist : IsParameterList [⟨paramsType base, "params", .positional, none⟩] [] :=
    ⟨by simp, by simp, Or.inl (by simp), by simpa using hparameter⟩
  have hread := entries_parameterList hlist
  rw [List.append_nil, parameterList_positional hlist.positional_kind] at hread
  have htext : declarations [⟨paramsType base, "params", .positional, none⟩]
      = paramsType base ++ " params" := by
    rw [← String.toList_inj]
    simp [declarations, join, Parameter.declaration]
  rw [htext] at hread
  exact hread

/-- **The wrapper and the holder of a method agree.**  The wrapper imports the file of the
holder, and ends with a method `call` whose one parameter has the class of the holder; and the
fields, the constructor and the properties of the holder and the arguments of the call all name
the parameters of the method in their order. -/
theorem professional_units_agree {method : Method} {base repository : String}
    {context : ImportContext} (hbase : isIdentifier base.toList = true)
    (hcontext : context.IsOneLine) (hheld : ∀ p ∈ method.parameters, IsHeld p) :
    ∃ wrapper holder, units method base repository .professional context = [wrapper, holder] ∧
      ("import '" ++ holder.fileName ++ "';").toList ∈ lines wrapper.content.toList ∧
      ("class " ++ paramsType base ++ " extends Equatable \x7b").toList
        ∈ lines holder.content.toList ∧
      (∃ front, wrapper.content.toList = front ++ '\n' :: rowsText
        (("  " ++ method.returnType ++ " call(" ++ (paramsType base ++ " params") ++ ")"
          ++ (if method.shape == .plainFuture && method.isVoid then " async" else "") ++ " \x7b")
          :: (callRows method base repository).tail)) ∧
      entries (paramsType base ++ " params").toList
        = [.accepted ⟨paramsType base, "params", .positional, none⟩] ∧
      fieldNames holder.content = (method.parameters.map fun p => p.name.toList) ∧
      constructorNames? holder.content = some (method.parameters.map fun p => some p.name.toList) ∧
      propsNames? holder.content = some (method.parameters.map fun p => p.name.toList) ∧
      (lastArguments wrapper.content).map forwardedName?
        = method.parameters.map fun p => some (p.name.toList, p.kind.isNamed) := by
  have hrows := newline_holderFile hbase hcontext hheld
  refine ⟨useCaseUnit method base repository .professional context,
    paramsUnit base method.parameters context, rfl, ?_, ?_, ?_, entries_params hbase,
    fieldNames_holder hheld hrows, constructorNames?_holder hbase hheld hrows,
    propsNames?_holder hheld hrows, lastArguments_wrapper fun p hp => (hheld p hp).name⟩
  · have himports : ∀ row ∈ (fileImports method base .professional context).map Import.directive,
        '\n' ∉ row.toList := by
      intro row hrow
      obtain ⟨i, hi, rfl⟩ := List.mem_map.mp hrow
      exact newline_useCaseImports hbase hcontext i (mem_fileImports.mp hi)
    have hparams : Import.mk (fileName (paramsType base))
        ∈ fileImports method base .professional context := by
      rw [mem_fileImports]
      exact List.mem_append_right _ (List.mem_cons_of_mem _ (List.mem_singleton.mpr rfl))
    rw [wrapper_rows, lines_rowsText_append himports]
    exact List.mem_append_left _ (List.mem_map_of_mem (List.mem_map_of_mem hparams))
  · have hheader : holderHeader base = "class " ++ paramsType base ++ " extends Equatable \x7b" := by
      rw [← String.toList_inj]
      simp [holderHeader]
    rw [holder_rows, lines_rowsText hrows, ← hheader]
    refine List.mem_append_left _ (List.mem_map_of_mem ?_)
    simp [holderFile]
  · have hcall : callRow method base repository .professional
        = "  " ++ method.returnType ++ " call(" ++ (paramsType base ++ " params") ++ ")"
          ++ (if method.shape == .plainFuture && method.isVoid then " async" else "") ++ " \x7b" := by
      have hsignature : (callOf method base repository .professional).signature
          = if method.shape == .plainFuture && method.isVoid then
              method.returnType ++ " " ++ "call" ++ "(" ++ (paramsType base ++ " params") ++ ")"
                ++ " async"
            else
              method.returnType ++ " " ++ "call" ++ "(" ++ (paramsType base ++ " params") ++ ")" := rfl
      rw [callRow, hsignature, ← String.toList_inj]
      split <;> simp
    refine ⟨rowsText ((fileImports method base .professional context).map Import.directive)
      ++ rowsText (("" :: openingRows base repository).dropLast), ?_⟩
    rw [wrapper_rows, ← hcall]
    simp [openingRows, rowsText, callRows]

/-! ### A method with every kind of parameter -/

/-- A listing whose defaults contain commas and brackets. -/
def listing : Method where
  name := "listUsers"
  payload := "List<User>"
  parameters := [⟨"int", "page", .positional, none⟩,
    ⟨"List<int>", "sizes", .optionalPositional, some "const [10, 20]"⟩,
    ⟨"String?", "query", .named, none⟩,
    ⟨"Map<String, String>", "params", .requiredNamed, none⟩,
    ⟨"String", "order", .named, some "'name, [id'"⟩]
  shape := .errorUnionFuture
  line := 7

/-- Where the repository of the listing lives. -/
def listingContext : ImportContext :=
  ⟨"app", "lib/user_repository.dart", "core/failures.dart"⟩

/-- The files of the listing agree, though one of its parameters is named like the holder's. -/
theorem listing_units_agree :
    ∃ wrapper holder,
      units listing "listUsers" "UserRepository" .professional listingContext = [wrapper, holder] ∧
      ("import '" ++ holder.fileName ++ "';").toList ∈ lines wrapper.content.toList ∧
      ("class " ++ paramsType "listUsers" ++ " extends Equatable \x7b").toList
        ∈ lines holder.content.toList ∧
      (∃ front, wrapper.content.toList = front ++ '\n' :: rowsText
        (("  " ++ listing.returnType ++ " call(" ++ (paramsType "listUsers" ++ " params") ++ ")"
          ++ (if listing.shape == .plainFuture && listing.isVoid then " async" else "") ++ " \x7b")
          :: (callRows listing "listUsers" "UserRepository").tail)) ∧
      entries (paramsType "listUsers" ++ " params").toList
        = [.accepted ⟨paramsType "listUsers", "params", .positional, none⟩] ∧
      fieldNames holder.content = (listing.parameters.map fun p => p.name.toList) ∧
      constructorNames? holder.content
        = some (listing.parameters.map fun p => some p.name.toList) ∧
      propsNames? holder.content = some (listing.parameters.map fun p => p.name.toList) ∧
      (lastArguments wrapper.content).map forwardedName?
        = listing.parameters.map fun p => some (p.name.toList, p.kind.isNamed) := by
  refine professional_units_agree (by decide) ⟨by decide, by decide, by decide⟩ fun p hp => ?_
  simp only [listing, List.mem_cons, List.not_mem_nil, or_false] at hp
  rcases hp with rfl | rfl | rfl | rfl | rfl
  · exact ⟨by decide, by decide, by rintro value ⟨⟩, by rintro value ⟨⟩⟩
  · exact ⟨by decide, by decide, by rintro value ⟨rfl⟩; decide, by rintro value ⟨rfl⟩; decide⟩
  · exact ⟨by decide, by decide, by rintro value ⟨⟩, by rintro value ⟨⟩⟩
  · exact ⟨by decide, by decide, by rintro value ⟨⟩, by rintro value ⟨⟩⟩
  · exact ⟨by decide, by decide, by rintro value ⟨rfl⟩; decide, by rintro value ⟨rfl⟩; decide⟩

end UseCases.Generation
