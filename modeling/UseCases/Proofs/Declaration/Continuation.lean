/-
What follows the opening parenthesis of a declaration.

Shape, payload and name of a method are read from the text before its parameter list.  What follows
can change them in one way only: the marker of an error union counts wherever it stands in a line,
so a parameter or a default that holds one makes the line an error union.  Any other continuation
decides no more than whether the parenthesis is closed.

The marker itself cannot begin before the parenthesis.  It holds two opening angle brackets with a
name between them, and the text up to the parenthesis has the bracket of the wrapper and at most
one more, that of the payload's arguments; so the name between them is the head of the payload.
-/
import UseCases.Proofs.Declaration.MethodParts

namespace UseCases.Declaration

open Dart Text

variable {shape : Shape} {payload : String} {t : TypeToken} {name rest : List Char}

/-! ### Angle brackets -/

theorem errorUnionMarker_eq : errorUnionMarker = "Future".toList ++ '<' :: eitherMarker := by decide

/-- What a wrapper holds, up to the parenthesis. -/
def wrapped (t : TypeToken) (name : List Char) : List Char :=
  t.text ++ '>' :: ' ' :: name

theorem count_less_type (t : TypeToken) : t.text.count '<' ≤ 1 := by
  have hhead : t.head.count '<' = 0 := List.count_eq_zero.mpr fun hmem =>
    absurd (isTypeChar_of_mem_head t hmem) (by decide)
  have hmark : t.mark.count '<' = 0 := by
    unfold TypeToken.mark
    split <;> rfl
  have harguments : t.argumentText.count '<' ≤ 1 := by
    unfold TypeToken.argumentText
    cases hargs : t.arguments? with
    | none => exact Nat.zero_le 1
    | some a =>
        obtain ⟨gap, inside⟩ := a
        have hgap : gap.count '<' = 0 := List.count_eq_zero.mpr fun hmem =>
          absurd (TypeToken.isBlank_of_mem_gap hargs '<' hmem) (by decide)
        have hinside : inside.count '<' = 0 := List.count_eq_zero.mpr fun hmem =>
          absurd (TypeToken.isArgumentChar_of_mem_inside hargs '<' hmem) (by decide)
        simp [hgap, hinside]
  rw [TypeToken.text, List.count_append, List.count_append, hhead, hmark]
  omega

theorem count_less_wrapped (t : TypeToken) (hname : isIdentifier name = true) :
    (wrapped t name).count '<' ≤ 1 := by
  have hcount : name.count '<' = 0 := List.count_eq_zero.mpr (not_mem_identifier hname (by decide))
  have htype := count_less_type t
  simp only [wrapped, List.count_append, List.count_cons, hcount]
  simpa using htype

/-- The head of a payload that starts like a union is `Either`. -/
theorem head_of_starts_eitherMarker (h : eitherMarker <+: wrapped t name) :
    t.head = eitherName := by
  obtain ⟨more, hmore⟩ := h
  have hleft : (wrapped t name).takeWhile isTypeChar = t.head := by
    rw [wrapped, TypeToken.text, List.append_assoc, List.append_assoc]
    refine takeWhile_append_stop (fun c => isTypeChar_of_mem_head t) fun c hc => ?_
    exact isTypeChar_after_head t (by rintro d ⟨rfl⟩; decide) hc
  rw [← hmore, eitherMarker_eq_name, List.append_assoc, List.singleton_append,
    takeWhile_append_stop (List.all_eq_true.mp (by decide)) (by rintro c ⟨rfl⟩; decide)] at hleft
  exact hleft.symm

/-- Behind its first bracket the marker goes on with the union. -/
theorem eq_eitherMarker {start back : List Char} (hstart : '<' ∉ start)
    (h : errorUnionMarker = start ++ '<' :: back) : back = eitherMarker := by
  have hfree : ∀ c ∈ start, (c != '<') = true := by
    intro c hc
    rw [bne_iff_ne]
    rintro rfl
    exact hstart hc
  rw [errorUnionMarker_eq] at h
  have htake := congrArg (List.takeWhile (· != '<')) h
  rw [takeWhile_append_stop (List.all_eq_true.mp (by decide)) (by rintro c ⟨rfl⟩; rfl),
    takeWhile_append_stop hfree (by rintro c ⟨rfl⟩; rfl)] at htake
  rw [← htake, List.append_cancel_left_eq] at h
  exact (List.cons.inj h).2.symm

/-- **The marker of an error union does not begin in a header** of another shape. -/
theorem not_infix_header {wrapper : List Char} (hwrapper : '<' ∉ wrapper)
    (hlength : wrapper.length ≤ 6) (hhead : t.head ≠ eitherName)
    (hname : isIdentifier name = true) :
    ¬errorUnionMarker <:+: wrapper ++ '<' :: wrapped t name := by
  have hcount : errorUnionMarker.count '<' = 2 := by decide
  have hone := count_less_wrapped t hname
  intro hwithin
  rw [← List.singleton_append, ← List.append_assoc, List.infix_append_iff] at hwithin
  rcases hwithin with hbefore | hafter | ⟨front, back, hmarker, hfront, hback⟩
  · have hle := hbefore.length_le
    have hlong : errorUnionMarker.length = 14 := by decide
    simp only [List.length_append, List.length_singleton] at hle
    omega
  · have hle := hafter.sublist.count_le '<'
    omega
  · have hle := hback.sublist.count_le '<'
    rcases List.eq_nil_or_concat front with rfl | ⟨start, last, rfl⟩
    · rw [hmarker, List.nil_append] at hcount
      omega
    · -- The front ends in the bracket of the wrapper, which is its only one.
      rw [List.concat_eq_append] at hmarker hfront
      obtain ⟨lead, hlead⟩ := hfront
      rw [← List.append_assoc] at hlead
      obtain ⟨hstart, hlast⟩ := List.append_inj' hlead rfl
      obtain rfl : last = '<' := by simpa using hlast
      have hfree : '<' ∉ start := fun hmem =>
        hwrapper (hstart ▸ List.mem_append_right lead hmem)
      rw [List.append_assoc, List.singleton_append] at hmarker
      rw [eq_eitherMarker hfree hmarker] at hback
      exact hhead (head_of_starts_eitherMarker hback)

/-! ### The marker in a line -/

/-- The wrapper of a shape that has only one, without its bracket. -/
theorem exists_declarationLine (hshape : shape ≠ .errorUnionFuture)
    (htype : payload.toList = t.text) (name : List Char) :
    ∃ wrapper : List Char, '<' ∉ wrapper ∧ wrapper.length ≤ 6 ∧
      ∀ rest, declarationLine shape payload name rest
        = (wrapper ++ '<' :: wrapped t name) ++ '(' :: rest := by
  cases shape with
  | errorUnionFuture => exact absurd rfl hshape
  | plainFuture =>
      refine ⟨"Future".toList, by decide, by decide, fun rest => ?_⟩
      rw [declarationLine_plainFuture, futureMarker_eq, htype]
      simp [wrapped]
  | stream =>
      refine ⟨"Stream".toList, by decide, by decide, fun rest => ?_⟩
      rw [declarationLine_stream, streamMarker_eq, htype]
      simp [wrapped]

/-- **The marker of an error union stands in what follows the parenthesis** or nowhere. -/
theorem infix_declarationLine_iff (hshape : shape ≠ .errorUnionFuture)
    (htype : payload.toList = t.text) (hhead : t.head ≠ eitherName)
    (hname : isIdentifier name = true) (rest : List Char) :
    errorUnionMarker <:+: declarationLine shape payload name rest ↔ errorUnionMarker <:+: rest := by
  obtain ⟨wrapper, hwrapper, hlength, hline⟩ := exists_declarationLine hshape htype name
  rw [hline]
  refine ⟨fun hwithin => ?_, fun hwithin => hwithin.trans
    ((List.suffix_cons '(' rest).trans (List.suffix_append _ _)).isInfix⟩
  rcases infix_append_cons (by decide) hwithin with hheader | hrest
  · exact absurd hheader (not_infix_header hwrapper hlength hhead hname)
  · exact hrest

/-! ### The line -/

theorem exists_wrap_cons (shape : Shape) (payload : String) :
    ∃ c cs, (shape.wrap payload).toList = c :: cs ∧ isBlank c = false := by
  cases shape with
  | plainFuture =>
      refine ⟨'F', "uture<".toList ++ payload.toList ++ ">".toList, ?_, by decide⟩
      rw [wrap_plainFuture, String.toList_append, String.toList_append]
      rfl
  | stream =>
      refine ⟨'S', "tream<".toList ++ payload.toList ++ ">".toList, ?_, by decide⟩
      rw [wrap_stream, String.toList_append, String.toList_append]
      rfl
  | errorUnionFuture =>
      refine ⟨'F', "uture<Either<Failure, ".toList ++ payload.toList ++ ">>".toList, ?_, by decide⟩
      rw [wrap_errorUnion, String.toList_append, String.toList_append]
      rfl

/-- Blanks at the end of a line are no part of its declaration. -/
theorem trim_declarationLine (shape : Shape) (payload : String) (name rest : List Char) :
    trim (declarationLine shape payload name rest)
      = declarationLine shape payload name (trimRight rest) := by
  have hsplit : ∀ text : List Char, declarationLine shape payload name text
      = ((shape.wrap payload).toList ++ ' ' :: (name ++ ['('])) ++ text := fun text => by
    rw [declarationLine]
    simp
  rw [hsplit, hsplit, trim_append]
  · simp
  · intro c hc
    obtain ⟨d, ds, hwrap, hd⟩ := exists_wrap_cons shape payload
    rw [hwrap] at hc
    cases hc
    exact hd
  · intro c hc
    obtain rfl : '(' = c := by simpa [List.getLast?_cons] using hc
    decide

/-- Blanks at the end of a continuation neither close a parenthesis nor hold a marker. -/
theorem trimRight_continuation (rest : List Char) :
    (ClosesIn '(' ')' (trimRight rest) ↔ ClosesIn '(' ')' rest) ∧
      (errorUnionMarker <:+: trimRight rest ↔ errorUnionMarker <:+: rest) := by
  obtain ⟨blanks, hblanks, hrest⟩ := exists_trimRight rest
  have hvisible : ∀ c ∈ errorUnionMarker, (!isBlank c) = true := List.all_eq_true.mp (by decide)
  refine ⟨?_, ?_⟩
  · conv_rhs => rw [hrest]
    exact (closesIn_append fun hmem => absurd (hblanks ')' hmem) (by decide)).symm
  · conv_rhs => rw [hrest]
    refine (infix_append_disjoint (by decide) fun c hc hmem => ?_).symm
    have hblank := hvisible c hmem
    rw [hblanks c hc] at hblank
    cases hblank

/-- A line that is the whole source. -/
theorem sourceLines_single {line : List Char} (hline : '\n' ∉ line)
    (hcomment : stripComments line = line) : sourceLines (String.ofList line) = [line] := by
  rw [sourceLines, String.toList_ofList, hcomment]
  refine splitAt_eq_singleton fun d hd => beq_eq_false_iff_ne.mpr ?_
  rintro rfl
  exact hline hd

/--
**A method depends on the text before its parameter list**, and on two facts about the rest of its
line.  The line declares the method that its header states if and only if the parenthesis is closed
in it and the marker of an error union does not stand behind the parenthesis.  Without that marker,
a line whose parenthesis is not closed declares nothing.
-/
theorem extract_declarationLine (shape : Shape) (payload : String) (t : TypeToken)
    (name rest : List Char) (hshape : shape ≠ .errorUnionFuture)
    (htype : payload.toList = t.text) (hhead : t.head ≠ eitherName)
    (hname : isIdentifier name = true)
    (hline : '\n' ∉ declarationLine shape payload name rest)
    (hcomment : stripComments (declarationLine shape payload name rest)
      = declarationLine shape payload name rest) :
    let methods := (extract (String.ofList (declarationLine shape payload name rest))).methods
    ((∃ parameters, methods = [⟨String.ofList name, payload, parameters, shape, 1⟩]) ↔
      ClosesIn '(' ')' rest ∧ ¬errorUnionMarker <:+: rest) ∧
    (¬ClosesIn '(' ')' rest → ¬errorUnionMarker <:+: rest → methods = []) := by
  intro methods
  have hlines := sourceLines_single hline hcomment
  have hmethods : methods = (readLine? 1 (declarationLine shape payload name rest)).toList.filterMap
      Candidate.method? := by
    show (readLines 1 (sourceLines _)).filterMap Candidate.method? = _
    rw [hlines, readLines, readLines, List.append_nil]
  have hclass := infix_declarationLine_iff hshape htype hhead hname (trimRight rest)
  obtain ⟨hcloses, hmarker⟩ := trimRight_continuation rest
  rw [readLine?, trim_declarationLine] at hmethods
  by_cases hunion : errorUnionMarker <:+: rest
  · -- The line is taken for an error union, so whatever it declares has that shape.
    refine ⟨iff_of_false ?_ fun h => h.2 hunion, fun _ h => absurd hunion h⟩
    rintro ⟨parameters, hsingle⟩
    have hmem : ⟨String.ofList name, payload, parameters, shape, 1⟩ ∈ methods := by
      rw [hsingle]
      exact List.mem_singleton_self _
    obtain ⟨i, line, -, hi, -, hclassify, -⟩ := declared_on hmem
    rw [hlines] at hi
    obtain rfl : line = declarationLine shape payload name rest := by
      simpa using List.mem_of_getElem? hi
    rw [trim_declarationLine, classify, if_pos (contains_iff.mpr (hclass.mpr (hmarker.mpr hunion)))]
      at hclassify
    exact hshape (Option.some.inj hclassify).symm
  · have hclassify : classify (declarationLine shape payload name (trimRight rest)) = some shape :=
      classify_declarationLine (Or.inr fun h => hunion (hmarker.mp (hclass.mp h)))
    have hheader := header?_declarationLine shape htype hname (trimRight rest)
    rw [hclassify, Option.map_some, Option.toList_some, readDeclaration, hheader] at hmethods
    have hsome : (enclosed? '(' ')' (trimRight rest)).isSome = true ↔ ClosesIn '(' ')' rest :=
      (enclosed?_isSome_iff (by decide)).trans hcloses
    cases henclosed : enclosed? '(' ')' (trimRight rest) with
    | none =>
        simp only [henclosed] at hmethods hsome
        have hopen : ¬ClosesIn '(' ')' rest := by simpa using hsome
        refine ⟨iff_of_false ?_ fun h => hopen h.1, fun _ _ => hmethods⟩
        rintro ⟨parameters, hsingle⟩
        rw [hsingle] at hmethods
        cases hmethods
    | some parameters =>
        simp only [henclosed] at hmethods hsome
        have hclosed : ClosesIn '(' ')' rest := by simpa using hsome
        refine ⟨iff_of_true ⟨accepted (entries parameters.inside), ?_⟩ ⟨hclosed, hunion⟩,
          fun h => absurd hclosed h⟩
        rw [hmethods]
        simp [Candidate.method?]

/-- A payload with arguments. -/
def countsType : TypeToken where
  head := "Map".toList
  arguments? := some ([' '], "String, int".toList)
  nullable := true
  head_isName := by decide
  gap_isBlank := by decide
  inside_isArgument := by decide

/-- A parameter that looks like a declaration of another shape, a bracket in a literal, and what is
almost a marker. -/
def busyContinuation : List Char :=
  "Future<int> get(Stream<void> s), \x7bString a = 'Future<Either)<'\x7d) async \x7b Future<".toList

/-- A parameter list that nothing closes: the last parenthesis is text. -/
def openContinuation : List Char :=
  "Future<void> job(), [String label = ')'".toList

theorem counts_depend_on_header :
    (∃ parameters, (extract (String.ofList (declarationLine .stream "Map <String, int>?"
        "counts".toList busyContinuation))).methods
      = [⟨"counts", "Map <String, int>?", parameters, .stream, 1⟩]) ∧
    (extract (String.ofList (declarationLine .plainFuture "Map <String, int>?" "counts".toList
      openContinuation))).methods = [] := by
  refine ⟨?_, ?_⟩
  · have hwhole := extract_declarationLine .stream "Map <String, int>?" countsType
      "counts".toList busyContinuation
      (by decide) (by decide) (by decide) (by decide) (by decide) (by decide)
    exact hwhole.1.mpr ⟨(enclosed?_isSome_iff (by decide)).mp (by decide),
      fun h => absurd (contains_iff.mpr h) (by decide)⟩
  · have hwhole := extract_declarationLine .plainFuture "Map <String, int>?" countsType
      "counts".toList openContinuation
      (by decide) (by decide) (by decide) (by decide) (by decide) (by decide)
    refine hwhole.2 (fun h => ?_) fun h => absurd (contains_iff.mpr h) (by decide)
    exact absurd ((enclosed?_isSome_iff (by decide)).mpr h) (by decide)

/-- A default that is the marker of an error union. -/
def labelContinuation : List Char :=
  "\x7bString label = 'Future<Either<'\x7d);".toList

/-- A parameter whose type is an error union. -/
def jobContinuation : List Char :=
  "Future<Either<Failure, int>> job());".toList

/-- Three lines that do not declare what their headers state, with a closed parenthesis each.
Behind the parenthesis of the first stands the marker in a literal, and the line declares nothing.
Behind that of the second stands an error union, and the line declares the parameter.  The third
has a comment in its payload, and is stripped of it. -/
theorem continuation_takes_over :
    (ClosesIn '(' ')' labelContinuation ∧ stripComments labelContinuation = labelContinuation ∧
      (extract (String.ofList (declarationLine .plainFuture "void" "run".toList
        labelContinuation))).methods = []) ∧
    (ClosesIn '(' ')' jobContinuation ∧ stripComments jobContinuation = jobContinuation ∧
      (extract (String.ofList (declarationLine .plainFuture "void" "run".toList
        jobContinuation))).methods = [⟨"job", "int", [], .errorUnionFuture, 1⟩]) ∧
    (ClosesIn '(' ')' ");".toList ∧ stripComments ");".toList = ");".toList ∧
      (extract (String.ofList (declarationLine .plainFuture "Map<String/*k*/, int>" "counts".toList
        ");".toList))).methods = [⟨"counts", "Map<String, int>", [], .plainFuture, 1⟩]) :=
  ⟨⟨(enclosed?_isSome_iff (by decide)).mp (by decide), by decide, by decide +kernel⟩,
    ⟨(enclosed?_isSome_iff (by decide)).mp (by decide), by decide, by decide +kernel⟩,
    (enclosed?_isSome_iff (by decide)).mp (by decide), by decide, by decide +kernel⟩

end UseCases.Declaration
