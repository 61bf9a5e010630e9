/-
Error unions, recognized by their marker and read by their header.

Two recognizers decide about an error union.  The marker, a fixed text, gives a line its shape; the
header, which allows white space between its parts, is then read from the line.  They decide alike
as long as no white space separates `Future<`, `Either` and the bracket after it: a line that
starts with the header carries the marker then, its method has the shape of an error union, and
the use case imports what that shape needs.

White space there hides the marker and nothing else.  The header still fits, but the line is taken
for a plain future whose payload is the union, and that is the only way to such a payload.
-/
import UseCases.Proofs.Declaration.MethodParts
import UseCases.Proofs.Generation.UseCase

namespace UseCases.Generation

open Dart Text Declaration

/-! ### Compact unions -/

/-- A line that starts with a future of a union has no white space between its `Future<` and the
bracket of the union. -/
def IsCompact (line : List Char) : Prop :=
  ∀ blanks gap rest, line = futureMarker ++ (blanks ++ (eitherName ++ (gap ++ '<' :: rest))) →
    (∀ c ∈ blanks, isBlank c = true) → (∀ c ∈ gap, isBlank c = true) → blanks = [] ∧ gap = []

theorem eq_nil_of_blanks {blanks rest rest' : List Char} {c : Char}
    (hblanks : ∀ d ∈ blanks, isBlank d = true) (hc : isBlank c = false)
    (h : blanks ++ rest = c :: rest') : blanks = [] := by
  cases blanks with
  | nil => rfl
  | cons d ds =>
      obtain rfl : d = c := (List.cons.inj h).1
      rw [hblanks d List.mem_cons_self] at hc
      cases hc

/-- A line that starts with the marker is compact. -/
theorem isCompact_of_marker {line : List Char} (h : errorUnionMarker <+: line) :
    IsCompact line := by
  obtain ⟨tail, htail⟩ := h
  rintro blanks gap rest rfl hblanks hgap
  rw [errorUnionMarker, List.append_assoc, List.append_cancel_left_eq,
    eitherMarker_eq_name] at htail
  obtain rfl := eq_nil_of_blanks hblanks (by decide) htail.symm
  rw [List.append_assoc, List.nil_append, List.append_cancel_left_eq] at htail
  exact ⟨rfl, eq_nil_of_blanks hgap (by decide) htail.symm⟩

/-- A compact line that starts with a future of a union starts with the marker. -/
theorem IsCompact.marker_starts {blanks gap rest line : List Char} (h : IsCompact line)
    (hline : line = futureMarker ++ (blanks ++ (eitherName ++ (gap ++ '<' :: rest))))
    (hblanks : ∀ c ∈ blanks, isBlank c = true) (hgap : ∀ c ∈ gap, isBlank c = true) :
    errorUnionMarker <+: line := by
  obtain ⟨rfl, rfl⟩ := h blanks gap rest hline hblanks hgap
  exact ⟨rest, by rw [hline, errorUnionMarker, eitherMarker_eq_name]; simp⟩

/-! ### The two recognizers -/

theorem classify_of_marker {line : List Char} (h : errorUnionMarker <:+: line) :
    classify line = some .errorUnionFuture := by
  rw [classify, if_pos (contains_iff.mpr h)]

theorem no_marker_of_classify {line : List Char} (h : classify line = some .plainFuture) :
    ¬errorUnionMarker <:+: line := by
  intro hwithin
  rw [classify_of_marker hwithin] at h
  cases h

theorem header?_of_start {line : List Char} {header : Header}
    (h : readErrorUnion? line = some header) : header? .errorUnionFuture line = some header :=
  firstMatch?_of_start h

/-- **The recognizers agree on a compact line.** -/
theorem classify_of_readErrorUnion? {line : List Char} {header : Header} (hcompact : IsCompact line)
    (h : readErrorUnion? line = some header) : classify line = some .errorUnionFuture := by
  obtain ⟨blanks, left, t, gap, rest, hblanks, hline, -⟩ := readErrorUnion?_split h
  have hstart : line = futureMarker ++ (blanks ++ (eitherName ++ ([] ++ '<' ::
      (left ++ (t.text ++ (gap ++ rest)))))) := by
    rw [hline, eitherMarker_eq_name, List.append_assoc]
    rfl
  exact classify_of_marker (hcompact.marker_starts hstart hblanks (by simp)).isInfix

/-- The payload is a union applied to arguments. -/
def IsUnion (payload : List Char) : Prop :=
  ∃ t : TypeToken, payload = t.text ∧ t.head = eitherName ∧ t.arguments?.isSome = true

/-- A plain future of a union is not compact. -/
theorem not_compact_of_isUnion {line : List Char} {header : Header}
    (hclass : classify line = some .plainFuture) (hheader : header? .plainFuture line = some header)
    (hunion : IsUnion header.payload) : ¬IsCompact line := by
  intro hcompact
  obtain ⟨t, hpayload, hhead, harguments⟩ := hunion
  obtain ⟨⟨gap, inside⟩, hargs⟩ := Option.isSome_iff_exists.mp harguments
  obtain ⟨blanks, t', rest, hblanks, hline, hfinish⟩ := readWrapped?_split hheader
  rw [← (finishHeader?_split hfinish).1, hpayload, TypeToken.text, TypeToken.argumentText, hargs,
    hhead] at hline
  have hstart : line = futureMarker ++ (blanks ++ (eitherName ++ (gap ++ '<' ::
      (inside ++ '>' :: (t.mark ++ rest))))) := by
    rw [hline]
    simp
  exact no_marker_of_classify hclass
    (hcompact.marker_starts hstart hblanks (TypeToken.isBlank_of_mem_gap hargs)).isInfix

/-! ### Imports -/

/-- What is imported is a row of the use case. -/
theorem directive_infix_useCase {method : Method} {base repository : String} {mode : Mode}
    {context : ImportContext} {i : Import} (h : i ∈ useCaseImports method base mode context) :
    rowsText [i.directive]
      <:+: (useCaseUnit method base repository mode context).content.toList := by
  rw [useCase_rows]
  exact rowsText_infix_of_mem (List.mem_append_left _ (List.mem_map_of_mem (mem_fileImports.mpr h)))

/-- The use case of an error union imports the union and the `Failure` type. -/
theorem imports_of_errorUnion {method : Method} (h : method.shape = .errorUnionFuture)
    (base : String) (mode : Mode) (context : ImportContext) :
    ∀ i ∈ [Import.package "dartz" "dartz.dart", context.failureImport],
      i ∈ useCaseImports method base mode context := by
  intro i hi
  rw [useCaseImports, h]
  exact List.mem_append_left _ hi

/--
**Marker and header agree about a compact line.**  If the line starts with the header of an error
union, it is taken for one, and that header is read from it.  Wherever it stands in a source, no
plain future of a union is extracted from it; and if it starts with the header of an error union
and its parameter list is closed, it declares one method, of that shape, whose use case imports the
union and the `Failure` type.
-/
theorem compact_unions_recognized (line : List Char) (hcompact : IsCompact line) :
    (∀ header, readErrorUnion? line = some header →
      classify line = some .errorUnionFuture ∧ header? .errorUnionFuture line = some header) ∧
    ∀ source i text, (sourceLines source)[i]? = some text → trim text = line →
      (∀ m ∈ (extract source).methods, m.line = i + 1 → m.shape = .plainFuture →
        ¬IsUnion m.payload.toList) ∧
      (∀ header, readErrorUnion? line = some header → ClosesIn '(' ')' header.rest →
        ∃ m, (extract source).methodsOn (i + 1) = [m] ∧ m.shape = .errorUnionFuture ∧
          m.name.toList = header.name ∧ m.payload.toList = header.payload ∧
          ∀ base repository mode context,
            ∀ needed ∈ [Import.package "dartz" "dartz.dart", context.failureImport],
              rowsText [needed.directive]
                <:+: (useCaseUnit m base repository mode context).content.toList) := by
  refine ⟨fun header hread =>
    ⟨classify_of_readErrorUnion? hcompact hread, header?_of_start hread⟩, ?_⟩
  intro source i text htext htrim
  refine ⟨fun m hm hnumber hshape hunion => ?_, fun header hread hclosed => ?_⟩
  · obtain ⟨j, later, dropped, hlater, hplace, hclass, hdeclared⟩ := declared_on hm
    obtain rfl : i = j := by omega
    obtain rfl : text = later := Option.some.inj (htext.symm.trans hlater)
    obtain ⟨header, parameters, hheader, -, hmethod, -⟩ :=
      readDeclaration_eq_declared_iff.mp hdeclared
    have hpayload : m.payload.toList = header.payload := by rw [hmethod, String.toList_ofList]
    rw [hshape, htrim] at hclass hheader
    exact not_compact_of_isUnion hclass hheader (hpayload ▸ hunion) hcompact
  · obtain ⟨parameters, henclosed⟩ :=
      Option.isSome_iff_exists.mp ((enclosed?_isSome_iff (by decide)).mpr hclosed)
    have hon := methodsOn_line source htext
    rw [readLine?, htrim, classify_of_readErrorUnion? hcompact hread, Option.map_some,
      readDeclaration, header?_of_start hread] at hon
    simp only [henclosed] at hon
    refine ⟨_, hon, rfl, String.toList_ofList, String.toList_ofList, ?_⟩
    intro base repository mode context needed hneeded
    exact directive_infix_useCase (imports_of_errorUnion rfl base mode context needed hneeded)

/-- The line of an error union, with white space everywhere but in its marker. -/
def looseUnionLine : List Char :=
  "Future<Either< Failure , List <User>?> > find (int id);".toList

/-- The line of a plain future, of a type with the union's name. -/
def namesakeLine : List Char :=
  "Future<Either > any();".toList

/-- A source of both. -/
def looseUnions : String :=
  "  " ++ String.ofList looseUnionLine ++ "\r\n  " ++ String.ofList namesakeLine

theorem loose_unions_recognized :
    classify looseUnionLine = some .errorUnionFuture ∧ ¬IsUnion "Either".toList ∧
    ∃ m, (extract looseUnions).methodsOn 1 = [m] ∧ m.shape = .errorUnionFuture ∧
      m.name.toList = "find".toList ∧ m.payload.toList = "List <User>?".toList ∧
      ∀ base repository mode context,
        ∀ needed ∈ [Import.package "dartz" "dartz.dart", context.failureImport],
          rowsText [needed.directive]
            <:+: (useCaseUnit m base repository mode context).content.toList := by
  have hunion : IsCompact looseUnionLine :=
    isCompact_of_marker (List.isPrefixOf_iff_prefix.mp (by decide))
  have hnamesake : IsCompact namesakeLine := by
    intro blanks gap rest hline
    have hcount := congrArg (List.count '<') hline
    rw [futureMarker_eq, show namesakeLine.count '<' = 1 by decide] at hcount
    simp only [List.count_append, List.count_cons] at hcount
    simp at hcount
  have hread : readErrorUnion? looseUnionLine
      = some ⟨"find".toList, "List <User>?".toList, "int id);".toList⟩ := by decide
  have hany : ⟨"any", "Either", [], .plainFuture, 2⟩ ∈ (extract looseUnions).methods := by
    decide +kernel
  obtain ⟨hclassify, hfirst⟩ := compact_unions_recognized looseUnionLine hunion
  obtain ⟨-, hsecond⟩ := compact_unions_recognized namesakeLine hnamesake
  refine ⟨(hclassify _ hread).1, ?_, ?_⟩
  · exact (hsecond looseUnions 1 ("  ".toList ++ namesakeLine) (by decide +kernel)
      (by decide)).1 _ hany rfl rfl
  · exact (hfirst looseUnions 0 ("  ".toList ++ looseUnionLine ++ ['\r']) (by decide +kernel)
      (by decide)).2 _ hread ((enclosed?_isSome_iff (by decide)).mp (by decide))

/-- An error union with white space in its marker. -/
def brokenUnion : String :=
  "Future< Either<Failure, User>> get();"

/-- White space after `Future<` hides the marker from a line that the header fits: the line declares
a plain future of the union, and its use case imports nothing that the union needs. -/
theorem spaced_union_is_plain :
    readErrorUnion? brokenUnion.toList = some ⟨"get".toList, "User".toList, ");".toList⟩ ∧
    classify brokenUnion.toList = some .plainFuture ∧
    ∃ m, (extract brokenUnion).methods = [m] ∧ m.shape = .plainFuture ∧
      m.payload = "Either<Failure, User>" ∧
      ∀ base mode context, useCaseImports m base mode context = context.declarationImport ::
        (if mode.hasParams then [Import.mk (fileName (paramsType base))] else []) :=
  ⟨by decide, by decide, ⟨"get", "Either<Failure, User>", [], .plainFuture, 1⟩,
    by decide +kernel, rfl, rfl, fun _ _ _ => rfl⟩

end UseCases.Generation
