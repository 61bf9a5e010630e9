/-
A simple use case mirrors its declaration.

The file of a use case is Dart code, so it can be read for declarations again.  It holds exactly
one, the row that opens `call`, and that row states the method it was generated from: the same
return type, the same parameters with the same defaults.  Every other row is silent, because
no marker of a declaration fits into it without an angle bracket.
-/
import UseCases.Declaration.Extraction
import UseCases.Proofs.Declaration.Header
import UseCases.Proofs.Generation.Naming
import UseCases.Proofs.Generation.ParameterList
import UseCases.Proofs.Generation.UseCase

namespace UseCases.Generation

open Dart Text Declaration

/-! ### Silent rows -/

/-- Every marker of a declaration has an angle bracket. -/
theorem classify_of_no_angle {line : List Char} (h : '<' ∉ line) : classify line = none := by
  have hunion : ¬contains errorUnionMarker line = true := by
    rw [contains_iff]
    exact fun hmarker => h (hmarker.subset (by decide))
  have hfuture : ¬startsWith futureMarker line = true := by
    rw [startsWith, List.isPrefixOf_iff_prefix]
    exact fun hmarker => h (hmarker.subset (by decide))
  have hstream : ¬startsWith streamMarker line = true := by
    rw [startsWith, List.isPrefixOf_iff_prefix]
    exact fun hmarker => h (hmarker.subset (by decide))
  rw [classify, if_neg hunion, if_neg hfuture, if_neg hstream]

/-- A row that opens no comment and carries no marker. -/
structure IsSilent (row : List Char) : Prop where
  oneLine : '\n' ∉ row
  noAngle : '<' ∉ row
  settled : Settled row

theorem readLine?_of_isSilent {row : List Char} (h : IsSilent row) (number : Nat) :
    readLine? number row = none := by
  have hnone : classify (trim row) = none :=
    classify_of_no_angle fun hmem => h.noAngle (mem_of_mem_trim hmem)
  simp [readLine?, hnone]

theorem readLines_silent {rows : List (List Char)} (h : ∀ row ∈ rows, IsSilent row)
    (number : Nat) (rest : List (List Char)) :
    readLines number (rows ++ rest) = readLines (number + rows.length) rest := by
  induction rows generalizing number with
  | nil => rfl
  | cons row rows ih =>
      rw [List.cons_append, readLines, readLine?_of_isSilent (h row List.mem_cons_self),
        ih fun r hr => h r (List.mem_cons_of_mem row hr)]
      simp [Nat.add_assoc, Nat.add_comm 1]

/-- A character of a row that neither quotes nor comments. -/
def isRowChar (c : Char) : Bool :=
  isQuietChar c && c != '<'

theorem isRowChar_of_isIdentifierChar {c : Char} (h : isIdentifierChar c = true) :
    isRowChar c = true := by
  have hquiet := isQuietChar_of_isTypeChar (isTypeChar_of_isIdentifierChar h)
  simp only [isRowChar, hquiet, Bool.true_and, bne_iff_ne]
  exact ne_of_forall h (by decide)

theorem all_isRowChar_identifier {name : List Char} (h : isIdentifier name = true) :
    name.all isRowChar = true :=
  List.all_eq_true.mpr fun c hc => isRowChar_of_isIdentifierChar (forall_mem_identifier h c hc)

theorem isPlain_of_isQuietChar {c : Char} (h : isQuietChar c = true) : isPlain c = true := by
  simp only [isQuietChar, Bool.and_eq_true, Bool.not_eq_true', bne_iff_ne] at h
  exact isPlain_iff.mpr ⟨h.1.2, h.1.1⟩

theorem isSilent_of_all {row : List Char} (h : row.all isRowChar = true) : IsSilent row where
  oneLine hmem := absurd (List.all_eq_true.mp h '\n' hmem) (by decide)
  noAngle hmem := absurd (List.all_eq_true.mp h '<' hmem) (by decide)
  settled := settled_plain fun c hc => by
    have hrow := List.all_eq_true.mp h c hc
    simp only [isRowChar, Bool.and_eq_true] at hrow
    exact isPlain_of_isQuietChar hrow.1

/-- A URI that an import directive can quote. -/
def isQuotable (uri : String) : Bool :=
  uri.toList.all fun c => !isQuote c && c != '\\' && c != '\n' && c != '<'

theorem isSilent_directive {i : Import} (h : isQuotable i.uri = true) :
    IsSilent i.directive.toList := by
  have huri : ∀ c ∈ i.uri.toList, isQuote c = false ∧ c ≠ '\\' ∧ c ≠ '\n' ∧ c ≠ '<' := by
    intro c hc
    have hchar := List.all_eq_true.mp h c hc
    simp only [Bool.and_eq_true, Bool.not_eq_true', bne_iff_ne] at hchar
    exact ⟨hchar.1.1.1, hchar.1.1.2, hchar.1.2, hchar.2⟩
  have htext : i.directive.toList
      = ['i', 'm', 'p', 'o', 'r', 't', ' '] ++ ('\'' :: (i.uri.toList ++ ['\'']) ++ [';']) := by
    simp [Import.directive]
  rw [htext]
  refine ⟨?_, ?_, Settled.plain_append (List.all_eq_true.mp (by decide)) ?_⟩
  · have hmem : '\n' ∉ i.uri.toList := fun hmem => (huri _ hmem).2.2.1 rfl
    simp [hmem]
  · have hmem : '<' ∉ i.uri.toList := fun hmem => (huri _ hmem).2.2.2 rfl
    simp [hmem]
  · refine (settled_literal (by decide) fun c hc => ?_).append
      (settled_plain (List.all_eq_true.mp (by decide))) (by rintro c ⟨rfl⟩; decide)
    obtain ⟨hquote, hescape, hnewline, -⟩ := huri c hc
    refine ⟨?_, hescape, hnewline⟩
    rintro rfl
    exact absurd hquote (by decide)

/-! ### The rows around `call` -/

theorem isSilent_openingRows {base repository : String} (hbase : isIdentifier base.toList = true)
    (hrepository : isIdentifier repository.toList = true) :
    ∀ row ∈ openingRows base repository, IsSilent row.toList := by
  have htype := all_isRowChar_identifier (isIdentifier_useCaseType hbase)
  have hname := all_isRowChar_identifier hrepository
  have hfield : (repositoryField repository).toList.all isRowChar = true :=
    all_isRowChar_identifier (isIdentifier_camelCase hrepository)
  intro row hrow
  refine isSilent_of_all ?_
  simp only [openingRows, List.mem_cons, List.not_mem_nil, or_false] at hrow
  rcases hrow with rfl | rfl | rfl | rfl | rfl
  · simp only [String.toList_append, List.all_append, htype, Bool.and_true]
    decide
  · simp only [Field.declaration, String.toList_append, List.all_append, hname, hfield,
      Bool.and_true]
    decide
  · rfl
  · have hdeclaration : Constructor.declaration
        ⟨useCaseType base, false, ["this." ++ repositoryField repository], []⟩
          = "" ++ useCaseType base ++ "(" ++ ("this." ++ repositoryField repository) ++ ");" := rfl
    simp only [hdeclaration, String.toList_append, List.all_append, htype, hfield, Bool.and_true]
    decide
  · rfl

/-- The names of parameters, forwarded by position or by name. -/
theorem all_forwarded {method : Method} (h : ∀ p ∈ method.parameters, IsParameter p) :
    (forwarded method .simple).toList.all isRowChar = true := by
  refine all_join (by decide) fun t ht => ?_
  obtain ⟨p, hp, rfl⟩ := List.mem_map.mp ht
  have hname := all_isRowChar_identifier (h p hp).name
  unfold argument
  split
  · rw [String.toList_append, String.toList_append, List.all_append, List.all_append, hname]
    decide
  · exact hname

theorem isSilent_statementRow {method : Method} {repository : String}
    (hmethod : isIdentifier method.name.toList = true)
    (hparameters : ∀ p ∈ method.parameters, IsParameter p)
    (hrepository : isIdentifier repository.toList = true) :
    IsSilent (statementRow method repository .simple).toList := by
  have hname := all_isRowChar_identifier hmethod
  have hforwarded := all_forwarded hparameters
  have hfield : (repositoryField repository).toList.all isRowChar = true :=
    all_isRowChar_identifier (isIdentifier_camelCase hrepository)
  have hkeyword : (if method.shape == .plainFuture && method.isVoid then "await "
      else "return ").toList.all isRowChar = true := by
    split <;> decide
  refine isSilent_of_all ?_
  unfold statementRow
  simp only [String.toList_append, List.all_append, hname, hforwarded, hfield, hkeyword,
    Bool.and_true]
  decide

/-! ### The row that opens `call` -/

/-- What follows the parameter list of `call`. -/
def callTail (method : Method) : List Char :=
  if method.shape == .plainFuture && method.isVoid then " async \x7b".toList else " \x7b".toList

/-- The row that opens `call`, as a declaration. -/
theorem toList_callRow (method : Method) (base repository : String) :
    (callRow method base repository .simple).toList
      = ' ' :: ' ' :: declarationLine method.shape method.payload "call".toList
          ((parameterList method.parameters).toList ++ ')' :: callTail method) := by
  have hsignature : (callOf method base repository .simple).signature
      = if method.shape == .plainFuture && method.isVoid then
          method.returnType ++ " " ++ "call" ++ "(" ++ parameterList method.parameters ++ ")" ++ " async"
        else method.returnType ++ " " ++ "call" ++ "(" ++ parameterList method.parameters ++ ")" := rfl
  unfold callRow callTail declarationLine
  rw [hsignature]
  split <;> simp [Method.returnType]

theorem trim_callRow (method : Method) (base repository : String) :
    trim (callRow method base repository .simple).toList
      = declarationLine method.shape method.payload "call".toList
          ((parameterList method.parameters).toList ++ ')' :: callTail method) := by
  rw [toList_callRow, trim_cons_blank (by decide), trim_cons_blank (by decide)]
  refine trim_eq_self (fun c hc => ?_) fun c hc => ?_
  · cases hshape : method.shape <;> rw [hshape] at hc
    · rw [declarationLine_plainFuture, futureMarker_eq] at hc
      cases hc
      decide
    · rw [declarationLine_errorUnion, futureMarker_eq] at hc
      cases hc
      decide
    · rw [declarationLine_stream, streamMarker_eq] at hc
      cases hc
      decide
  · have hlast : c = '\x7b' := by
      unfold declarationLine callTail at hc
      split at hc <;> simpa [List.getLast?_append, List.getLast?_cons] using hc.symm
    rw [hlast]
    decide

/-! ### The file -/

/-- A method that a use case can be generated for and read back from. -/
structure IsDescriptor (method : Method) : Prop where
  name : isIdentifier method.name.toList = true
  payload : ∃ t : TypeToken, method.payload.toList = t.text ∧ isQuietType t = true
  parameters : ∃ positional group, method.parameters = positional ++ group ∧
    IsParameterList positional group

theorem IsDescriptor.each {method : Method} (h : IsDescriptor method) :
    ∀ p ∈ method.parameters, IsParameter p := by
  obtain ⟨positional, group, hps, hlist⟩ := h.parameters
  rw [hps]
  exact hlist.each

theorem IsDescriptor.isInline {method : Method} (h : IsDescriptor method) :
    IsInline (parameterList method.parameters).toList := by
  obtain ⟨positional, group, hps, hlist⟩ := h.parameters
  rw [hps]
  exact isInline_parameterList hlist

theorem all_wrap {payload : String} (h : payload.toList.all isQuietChar = true) (shape : Shape) :
    (shape.wrap payload).toList.all isQuietChar = true := by
  cases shape with
  | plainFuture =>
      rw [wrap_plainFuture, String.toList_append, String.toList_append, List.all_append,
        List.all_append, h]
      decide
  | errorUnionFuture =>
      rw [wrap_errorUnion, String.toList_append, String.toList_append, List.all_append,
        List.all_append, h]
      decide
  | stream =>
      rw [wrap_stream, String.toList_append, String.toList_append, List.all_append,
        List.all_append, h]
      decide

/-- Nothing of the row that opens `call` is a comment, and it is one row. -/
theorem settled_callRow {method : Method} (h : IsDescriptor method) (base repository : String) :
    '\n' ∉ (callRow method base repository .simple).toList ∧
      Settled (callRow method base repository .simple).toList := by
  obtain ⟨t, htext, hquiet⟩ := h.payload
  have hinline := h.isInline
  have hwrap : ∀ c ∈ ' ' :: ' ' :: ((method.shape.wrap method.payload).toList ++ " call(".toList),
      isQuietChar c = true := by
    have hpayload : method.payload.toList.all isQuietChar = true := by
      rw [htext, List.all_eq_true]
      exact isQuietChar_of_mem_type hquiet
    refine List.all_eq_true.mp ?_
    rw [List.all_cons, List.all_cons, List.all_append, all_wrap hpayload]
    decide
  have htail : ∀ c ∈ ')' :: callTail method, isQuietChar c = true := by
    refine List.all_eq_true.mp ?_
    unfold callTail
    split <;> decide
  have hrow : (callRow method base repository .simple).toList
      = (' ' :: ' ' :: ((method.shape.wrap method.payload).toList ++ " call(".toList))
        ++ ((parameterList method.parameters).toList ++ ')' :: callTail method) := by
    rw [toList_callRow]
    simp [declarationLine]
  rw [hrow]
  refine ⟨?_, Settled.plain_append (fun c hc => isPlain_of_isQuietChar (hwrap c hc)) ?_⟩
  · rw [List.mem_append, List.mem_append]
    rintro (hmem | hmem | hmem)
    · exact absurd (hwrap _ hmem) (by decide)
    · exact hinline.oneLine hmem
    · exact absurd (htail _ hmem) (by decide)
  · refine hinline.settled.append
      (settled_plain fun c hc => isPlain_of_isQuietChar (htail c hc)) ?_
    rintro c ⟨rfl⟩
    decide

/-- The rows of the file before the one that opens `call`. -/
def rowsBefore (method : Method) (base repository : String) (context : ImportContext) :
    List String :=
  (fileImports method base .simple context).map Import.directive ++ "" :: openingRows base repository

/-- The rows of the file after it. -/
def rowsAfter (method : Method) (repository : String) : List String :=
  [statementRow method repository .simple, "  \x7d", "\x7d"]

theorem isSilent_rowsBefore {method : Method} {base repository : String}
    {context : ImportContext} (hbase : isIdentifier base.toList = true)
    (hrepository : isIdentifier repository.toList = true)
    (himports : ∀ i ∈ useCaseImports method base .simple context, isQuotable i.uri = true) :
    ∀ row ∈ rowsBefore method base repository context, IsSilent row.toList := by
  intro row hrow
  rcases List.mem_append.mp hrow with hrow | hrow
  · obtain ⟨i, hi, rfl⟩ := List.mem_map.mp hrow
    exact isSilent_directive (himports i (mem_fileImports.mp hi))
  · rcases List.mem_cons.mp hrow with rfl | hrow
    · exact isSilent_of_all rfl
    · exact isSilent_openingRows hbase hrepository row hrow

theorem isSilent_rowsAfter {method : Method} {repository : String} (hmethod : IsDescriptor method)
    (hrepository : isIdentifier repository.toList = true) :
    ∀ row ∈ rowsAfter method repository, IsSilent row.toList := by
  intro row hrow
  simp only [rowsAfter, List.mem_cons, List.not_mem_nil, or_false] at hrow
  rcases hrow with rfl | rfl | rfl
  · exact isSilent_statementRow hmethod.name hmethod.each hrepository
  · exact isSilent_of_all (by decide)
  · exact isSilent_of_all (by decide)

/-- The lines of the file are its rows, since no comment is taken out of it. -/
theorem lines_useCase {method : Method} {base repository : String} {context : ImportContext}
    (hmethod : IsDescriptor method) (hbase : isIdentifier base.toList = true)
    (hrepository : isIdentifier repository.toList = true)
    (himports : ∀ i ∈ useCaseImports method base .simple context, isQuotable i.uri = true) :
    lines (stripComments (useCaseUnit method base repository .simple context).content.toList)
      = (rowsBefore method base repository context).map String.toList
        ++ (callRow method base repository .simple).toList
          :: ((rowsAfter method repository).map String.toList ++ [[]]) := by
  have hcall := settled_callRow hmethod base repository
  have hall : ∀ row ∈ rowsBefore method base repository context
      ++ callRow method base repository .simple :: rowsAfter method repository,
      '\n' ∉ row.toList ∧ Settled row.toList := by
    intro row hrow
    rcases List.mem_append.mp hrow with hrow | hrow
    · have hsilent := isSilent_rowsBefore hbase hrepository himports row hrow
      exact ⟨hsilent.oneLine, hsilent.settled⟩
    · rcases List.mem_cons.mp hrow with rfl | hrow
      · exact hcall
      · have hsilent := isSilent_rowsAfter hmethod hrepository row hrow
        exact ⟨hsilent.oneLine, hsilent.settled⟩
  have htext : (useCaseUnit method base repository .simple context).content.toList
      = rowsText (rowsBefore method base repository context
          ++ callRow method base repository .simple :: rowsAfter method repository) := by
    rw [useCase_rows]
    simp [rowsBefore, rowsAfter]
  rw [htext, stripComments_of_settled (settled_rowsText fun row hrow => (hall row hrow).2),
    lines_rowsText fun row hrow => (hall row hrow).1]
  simp

theorem readLine?_callRow {method : Method} {base repository : String}
    (hmethod : IsDescriptor method)
    (hmarker : method.shape = .errorUnionFuture ∨
      ¬errorUnionMarker <:+: (callRow method base repository .simple).toList) (number : Nat) :
    readLine? number (callRow method base repository .simple).toList
      = some ⟨number, .declared { method with name := "call", line := number } []⟩ := by
  obtain ⟨t, htext, -⟩ := hmethod.payload
  obtain ⟨positional, group, hps, hlist⟩ := hmethod.parameters
  have hclassify : classify (trim (callRow method base repository .simple).toList)
      = some method.shape := by
    rw [trim_callRow]
    refine classify_declarationLine (hmarker.imp_right fun hnone hmarked => hnone ?_)
    rw [toList_callRow]
    exact hmarked.trans (List.suffix_append [' ', ' '] _).isInfix
  have hentries : entries (parameterList method.parameters).toList
      = method.parameters.map Entry.accepted := by
    rw [hps]
    exact entries_parameterList hlist
  have haccepted : ∀ ps : List Parameter, accepted (ps.map Entry.accepted) = ps := fun ps => by
    simp [accepted, List.filterMap_map]
  have hrejected : ∀ ps : List Parameter, rejected (ps.map Entry.accepted) = [] := fun ps => by
    simp [rejected, List.filterMap_map]
  show (classify (trim (callRow method base repository .simple).toList)).map _ = _
  rw [hclassify, Option.map_some, trim_callRow,
    readDeclaration_declarationLine method.shape number htext (by decide) hmethod.isInline,
    hentries, haccepted, hrejected, String.ofList_toList]

/-- **A simple use case, read for declarations, gives the method it was generated from**, under
the name `call` and on the row that opens it. -/
theorem extract_simple_useCase {method : Method} {base repository : String}
    {context : ImportContext} (hmethod : IsDescriptor method)
    (hbase : isIdentifier base.toList = true) (hrepository : isIdentifier repository.toList = true)
    (himports : ∀ i ∈ useCaseImports method base .simple context, isQuotable i.uri = true)
    (hmarker : method.shape = .errorUnionFuture ∨
      ¬errorUnionMarker <:+: (callRow method base repository .simple).toList) :
    ∃ unit, units method base repository .simple context = [unit] ∧
      (extract unit.content).methods = [{ method with
        name := "call"
        line := (fileImports method base .simple context).length + 7 }] ∧
      (extract unit.content).diagnostics = [] := by
  refine ⟨useCaseUnit method base repository .simple context, rfl, ?_⟩
  have hbefore : ∀ row ∈ (rowsBefore method base repository context).map String.toList,
      IsSilent row := by
    intro row hrow
    obtain ⟨r, hr, rfl⟩ := List.mem_map.mp hrow
    exact isSilent_rowsBefore hbase hrepository himports r hr
  have hafter : ∀ row ∈ (rowsAfter method repository).map String.toList ++ [[]],
      IsSilent row := by
    intro row hrow
    rcases List.mem_append.mp hrow with hrow | hrow
    · obtain ⟨r, hr, rfl⟩ := List.mem_map.mp hrow
      exact isSilent_rowsAfter hmethod hrepository r hr
    · rw [List.mem_singleton.mp hrow]
      exact isSilent_of_all rfl
  have hnumber : 1 + ((rowsBefore method base repository context).map String.toList).length
      = (fileImports method base .simple context).length + 7 := by
    simp only [rowsBefore, openingRows, List.length_map, List.length_append, List.length_cons,
      List.length_nil]
    omega
  have hcandidates : extract (useCaseUnit method base repository .simple context).content
      = ⟨[⟨(fileImports method base .simple context).length + 7,
          .declared { method with
            name := "call"
            line := (fileImports method base .simple context).length + 7 } []⟩]⟩ := by
    have hend :=
      readLines_silent hafter ((fileImports method base .simple context).length + 7 + 1) []
    rw [List.append_nil] at hend
    rw [extract, lines_useCase hmethod hbase hrepository himports, readLines_silent hbefore,
      hnumber, readLines, readLine?_callRow hmethod hmarker, hend]
    rfl
  rw [hcandidates]
  exact ⟨rfl, rfl⟩

/-! ### A method with defaults that nest and quote -/

/-- A search whose defaults contain commas, brackets and a comment marker. -/
def search : Method where
  name := "search"
  payload := "Map<String, int>?"
  parameters := [⟨"List<int>", "ids", .positional, none⟩,
    ⟨"Duration?", "within", .named, some "const Duration(days: 1, hours: 2)"⟩,
    ⟨"String", "site", .requiredNamed, none⟩,
    ⟨"String", "base", .named, some "'http://a, [b'"⟩]
  shape := .plainFuture
  line := 3

/-- Where the repository of the search lives. -/
def searchContext : ImportContext :=
  ⟨"app", "lib/search_repository.dart", "core/failures.dart"⟩

theorem isDescriptor_search : IsDescriptor search where
  name := by decide
  payload := ⟨⟨"Map".toList, some ([], "String, int".toList), true, by decide, by decide,
    by decide⟩, by decide, by decide⟩
  parameters := by
    refine ⟨search.parameters.take 1, search.parameters.drop 1, rfl, ?_, ?_, Or.inr ?_, ?_⟩
    · decide
    · decide
    · decide
    · intro p hp
      simp only [search, List.take_append_drop, List.mem_cons, List.not_mem_nil, or_false] at hp
      rcases hp with rfl | rfl | rfl | rfl
      · refine ⟨by decide, ⟨⟨"List".toList, some ([], "int".toList), false, by decide, by decide,
          by decide⟩, by decide, by decide, by decide, by decide⟩, ?_⟩
        rintro value ⟨⟩
      · refine ⟨by decide, ⟨⟨"Duration".toList, none, true, by decide, by decide, by decide⟩,
          by decide, by decide, by decide, by decide⟩, ?_⟩
        rintro value ⟨rfl⟩
        exact ⟨by decide, by decide, by decide, by decide, by decide⟩
      · refine ⟨by decide, ⟨⟨"String".toList, none, false, by decide, by decide, by decide⟩,
          by decide, by decide, by decide, by decide⟩, ?_⟩
        rintro value ⟨⟩
      · refine ⟨by decide, ⟨⟨"String".toList, none, false, by decide, by decide, by decide⟩,
          by decide, by decide, by decide, by decide⟩, ?_⟩
        rintro value ⟨rfl⟩
        exact ⟨by decide, by decide, by decide, by decide, by decide⟩

/-- The search is mirrored, defaults and all. -/
theorem extract_search_useCase :
    ∃ unit, units search "search" "SearchRepository" .simple searchContext = [unit] ∧
      (extract unit.content).methods = [{ search with
        name := "call"
        line := (fileImports search "search" .simple searchContext).length + 7 }] ∧
      (extract unit.content).diagnostics = [] := by
  refine extract_simple_useCase isDescriptor_search (by decide) (by decide) (by decide +kernel)
    (Or.inr ?_)
  rw [← contains_iff]
  decide +kernel

end UseCases.Generation
