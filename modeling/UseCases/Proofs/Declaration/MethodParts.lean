/-
Where a method comes from.

A method of an extraction was declared by one line, which is found again by the number that the
method bears.  Whatever that line holds, the method is well formed: its parameters are, and its
name and its payload are tokens that the reader of the header returned.  The header stands before
the parameter list, so payload, name and the parts of the parameters stand on the line in this
order, and nothing of a method is made up.
-/
import UseCases.Proofs.Declaration.Accounting
import UseCases.Proofs.Declaration.Header
import UseCases.Proofs.Declaration.ParameterParts

namespace UseCases.Declaration

open Dart Text

/-! ### Headers -/

/-- A header ends in its name, the parenthesis and what follows it. -/
theorem finishHeader?_split {payload text : List Char} {header : Header}
    (h : finishHeader? payload text = some header) :
    header.payload = payload ∧ isIdentifier header.name = true ∧
      ∃ gap gap', text = gap ++ (header.name ++ (gap' ++ '(' :: header.rest)) := by
  simp only [finishHeader?, Option.bind_eq_bind, Option.bind_eq_some_iff, Option.pure_def,
    Option.some.injEq] at h
  obtain ⟨text', hclosing, name, hname, rest, hopening, rfl⟩ := h
  obtain ⟨blanks, -, htext⟩ := readMark?_split hclosing
  obtain ⟨more, -, htext'⟩ := exists_skipBlanks text'
  obtain ⟨hidentifier, hskip⟩ := readName?_split hname
  obtain ⟨last, -, hrest⟩ := readMark?_split hopening
  refine ⟨rfl, hidentifier, blanks ++ '>' :: more, last, ?_⟩
  rw [htext, htext', hskip, hrest]
  simp

/-- A wrapped payload stands after the marker and white space. -/
theorem readWrapped?_split {marker text : List Char} {header : Header}
    (h : readWrapped? marker text = some header) :
    ∃ (blanks : List Char) (t : TypeToken) (rest : List Char),
      (∀ c ∈ blanks, isBlank c = true) ∧ text = marker ++ (blanks ++ (t.text ++ rest)) ∧
        finishHeader? t.text rest = some header := by
  simp only [readWrapped?, Option.bind_eq_bind, Option.bind_eq_some_iff] at h
  obtain ⟨text', hafter, payload, hpayload, hfinish⟩ := h
  obtain ⟨blanks, hblanks, htext'⟩ := exists_skipBlanks text'
  obtain ⟨t, htoken, hskip⟩ := readType?_split hpayload
  rw [htoken] at hfinish
  exact ⟨blanks, t, payload.rest, hblanks, by rw [after?_eq_some.mp hafter, ← hskip, ← htext'],
    hfinish⟩

/-- The payload of an error union stands after the markers of both its wrappers. -/
theorem readErrorUnion?_split {text : List Char} {header : Header}
    (h : readErrorUnion? text = some header) :
    ∃ (blanks left : List Char) (t : TypeToken) (gap rest : List Char),
      (∀ c ∈ blanks, isBlank c = true) ∧
        text = futureMarker ++ (blanks ++ (eitherMarker ++ (left ++ (t.text ++ (gap ++ rest))))) ∧
        finishHeader? t.text rest = some header := by
  simp only [readErrorUnion?, Option.bind_eq_bind, Option.bind_eq_some_iff] at h
  obtain ⟨inside, hfuture, union, heither, side, hside, text', hcomma, payload, hpayload, rest,
    hclosing, hfinish⟩ := h
  obtain ⟨blanks, hblanks, hinside⟩ := exists_skipBlanks inside
  obtain ⟨first, -, hunion⟩ := exists_skipBlanks union
  obtain ⟨t₁, -, hfirst⟩ := readType?_split hside
  obtain ⟨second, -, hrest⟩ := readMark?_split hcomma
  obtain ⟨third, -, htext'⟩ := exists_skipBlanks text'
  obtain ⟨t, htoken, hskip⟩ := readType?_split hpayload
  obtain ⟨fourth, -, hlast⟩ := readMark?_split hclosing
  rw [htoken] at hfinish
  refine ⟨blanks, first ++ (t₁.text ++ (second ++ ',' :: third)), t, fourth ++ ['>'], rest, hblanks,
    ?_, hfinish⟩
  rw [after?_eq_some.mp hfuture, hinside, after?_eq_some.mp heither, hunion, hfirst, hrest,
    htext', hskip, hlast]
  simp

/-- The header stands in the text: its payload is a type token, its name an identifier, and both
stand before everything that is read of the rest. -/
structure Header.Heads (header : Header) (text : List Char) : Prop where
  payload : IsType header.payload
  name : isIdentifier header.name = true
  order : ∀ parts, InOrder parts header.rest →
    InOrder (header.payload :: header.name :: parts) text

theorem Header.Heads.within {header : Header} {text line : List Char} (h : header.Heads text)
    (hwithin : text <:+: line) : header.Heads line where
  payload := h.payload
  name := h.name
  order parts hparts := (h.order parts hparts).within hwithin

theorem heads_of_finishHeader? {t : TypeToken} {rest : List Char} {header : Header}
    (h : finishHeader? t.text rest = some header) (gap : List Char) :
    header.Heads (t.text ++ (gap ++ rest)) := by
  obtain ⟨hpayload, hname, before, after, hrest⟩ := finishHeader?_split h
  refine ⟨hpayload ▸ isType_text t, hname, fun parts hparts => ?_⟩
  have hrest' : InOrder (header.name :: parts) rest := by
    rw [hrest]
    exact InOrder.cons before header.name ((hparts.prepend ['(']).prepend after)
  rw [hpayload]
  exact InOrder.cons [] t.text (hrest'.prepend gap)

/-- The last part of a header is read after its payload, somewhere in the line. -/
theorem exists_finishHeader? {shape : Shape} {line : List Char} {header : Header}
    (h : header? shape line = some header) :
    ∃ (t : TypeToken) (gap rest : List Char), t.text ++ (gap ++ rest) <:+ line ∧
      finishHeader? t.text rest = some header := by
  have hwrapped : ∀ {marker : List Char}, readWrapped? marker line = some header →
      ∃ (t : TypeToken) (gap rest : List Char), t.text ++ (gap ++ rest) <:+ line ∧
        finishHeader? t.text rest = some header := by
    intro marker hread
    obtain ⟨blanks, t, rest, -, hline, hfinish⟩ := readWrapped?_split hread
    exact ⟨t, [], rest, ⟨marker ++ blanks, by rw [hline]; simp⟩, hfinish⟩
  cases shape with
  | plainFuture => exact hwrapped h
  | stream => exact hwrapped h
  | errorUnionFuture =>
      obtain ⟨text, hsuffix, hread⟩ := exists_of_firstMatch? h
      obtain ⟨blanks, left, t, gap, rest, -, htext, hfinish⟩ := readErrorUnion?_split hread
      have htail : t.text ++ (gap ++ rest) <:+ text :=
        ⟨futureMarker ++ (blanks ++ (eitherMarker ++ left)), by rw [htext]; simp⟩
      exact ⟨t, gap, rest, htail.trans hsuffix, hfinish⟩

/-- **Whatever header is found in a line stands in it.** -/
theorem heads_of_header? {shape : Shape} {line : List Char} {header : Header}
    (h : header? shape line = some header) : header.Heads line := by
  obtain ⟨t, gap, rest, hsuffix, hfinish⟩ := exists_finishHeader? h
  exact (heads_of_finishHeader? hfinish gap).within hsuffix.isInfix

/-- **A header ends with the parenthesis** that opens the parameter list. -/
theorem opened_of_header? {shape : Shape} {line : List Char} {header : Header}
    (h : header? shape line = some header) : '(' :: header.rest <:+ line := by
  obtain ⟨t, gap, rest, hsuffix, hfinish⟩ := exists_finishHeader? h
  obtain ⟨-, -, before, after, hrest⟩ := finishHeader?_split hfinish
  refine List.IsSuffix.trans ⟨t.text ++ (gap ++ (before ++ (header.name ++ after))), ?_⟩ hsuffix
  rw [hrest]
  simp

/-! ### Declarations -/

/-- A candidate was read off the line that it is numbered after. -/
theorem exists_of_mem_readLines {ls : List (List Char)} {c : Candidate} {number : Nat}
    (h : c ∈ readLines number ls) :
    ∃ i line, ls[i]? = some line ∧ readLine? (number + i) line = some c := by
  induction ls generalizing number with
  | nil => cases h
  | cons first rest ih =>
      rcases List.mem_append.mp h with h | h
      · exact ⟨0, first, rfl, Option.mem_toList.mp h⟩
      · obtain ⟨i, line, hline, hread⟩ := ih h
        refine ⟨i + 1, line, hline, ?_⟩
        rwa [Nat.add_assoc, Nat.add_comm 1 i] at hread

/-- **Every method was declared by the line that it names.** -/
theorem declared_on {source : String} {m : Method} (h : m ∈ (extract source).methods) :
    ∃ i line dropped, (sourceLines source)[i]? = some line ∧ m.line = i + 1 ∧
      classify (trim line) = some m.shape ∧
      readDeclaration m.shape (i + 1) (trim line) = .declared m dropped := by
  obtain ⟨c, hc, hmethod⟩ := List.mem_filterMap.mp h
  obtain ⟨i, line, hline, hread⟩ := exists_of_mem_readLines hc
  rw [Nat.add_comm 1 i] at hread
  obtain ⟨shape, hshape, rfl⟩ := Option.map_eq_some_iff.mp hread
  simp only [Candidate.method?] at hmethod
  split at hmethod
  · rename_i method dropped hdeclared
    cases hmethod
    obtain ⟨header, parameters, -, -, hm, -⟩ := readDeclaration_eq_declared_iff.mp hdeclared
    obtain rfl : m.shape = shape := by rw [hm]
    exact ⟨i, line, dropped, hline, readDeclaration_line hdeclared, hshape, hdeclared⟩
  · cases hmethod

/-- What reading one line of a source contributes to its methods. -/
theorem methodsOn_line (source : String) {i : Nat} {line : List Char}
    (h : (sourceLines source)[i]? = some line) :
    (extract source).methodsOn (i + 1)
      = (readLine? (i + 1) line).toList.filterMap Candidate.method? := by
  rw [methodsOn_eq (extract_placed source), extract_on source h]

/-! ### Methods -/

/-- The parts of a method that are taken from its line, in the order of the line. -/
def Method.parts (m : Method) : List (List Char) :=
  m.payload.toList :: m.name.toList :: m.parameters.flatMap Parameter.parts

/--
**Every method of an extraction is well formed**, whatever the source.  Its name is an identifier
and its payload a type token.  Its parameters are positional ones and at most one group, each with
a type token, an identifier and, if any, a default that stays one entry in a list.  And all of
these parts stand on the line of the method, from left to right and apart from each other.
-/
theorem extract_wellFormed {source : String} {m : Method} (h : m ∈ (extract source).methods) :
    isIdentifier m.name.toList = true ∧ IsType m.payload.toList ∧ IsGrouped m.parameters ∧
      (∀ p ∈ m.parameters, IsWellFormed p) ∧
      ∃ i line, m.line = i + 1 ∧ (sourceLines source)[i]? = some line ∧
        (∀ part ∈ m.parts, part <:+: line) ∧ InOrder m.parts line := by
  obtain ⟨i, line, dropped, hline, hnumber, -, hdeclared⟩ := declared_on h
  obtain ⟨header, parameters, hheader, henclosed, hm, -⟩ :=
    readDeclaration_eq_declared_iff.mp hdeclared
  have hheads := heads_of_header? hheader
  have hparts : InOrder ((accepted (entries parameters.inside)).flatMap Parameter.parts)
      header.rest := by
    rw [enclosed?_split henclosed]
    exact (entries_inOrder parameters.inside).within
      (List.prefix_append parameters.inside (')' :: parameters.after)).isInfix
  have hname : m.name.toList = header.name := by rw [hm, String.toList_ofList]
  have hpayload : m.payload.toList = header.payload := by rw [hm, String.toList_ofList]
  have hparameters : m.parameters = accepted (entries parameters.inside) := by rw [hm]
  have horder : InOrder m.parts line := by
    rw [Method.parts, hname, hpayload, hparameters]
    exact (hheads.order _ hparts).within (infix_trim line)
  refine ⟨hname ▸ hheads.name, hpayload ▸ hheads.payload, ?_, ?_, i, line, hnumber, hline,
    fun part hpart => horder.infix_of_mem hpart, horder⟩
  · rw [hparameters]
    exact entries_grouped parameters.inside
  · rw [hparameters]
    exact fun p hp => isWellFormed_of_mem_entries hp

/-- A group that nothing closes, entries that are no parameters, an empty default, and a literal
with brackets in it. -/
def looseLine : String :=
  "  Stream<Map <String, int>?>watch (final int a, this.b, \x7brequired lib.User u = f(1, '),\"'), "
    ++ "String? label =, int> x = < [2, 3);\r"

/-- What the line declares in spite of that. -/
def looseMethod : Method where
  name := "watch"
  payload := "Map <String, int>?"
  parameters :=
    [⟨"int", "a", .positional, none⟩,
      ⟨"lib.User", "u", .requiredNamed, some "f(1, '),\"')"⟩,
      ⟨"String?", "label", .named, none⟩]
  shape := .stream
  line := 1

theorem looseMethod_wellFormed :
    looseMethod ∈ (extract looseLine).methods ∧
      isIdentifier "watch".toList = true ∧ IsType "Map <String, int>?".toList ∧
      IsGrouped looseMethod.parameters ∧ (∀ p ∈ looseMethod.parameters, IsWellFormed p) ∧
      ∃ i line, 1 = i + 1 ∧ (sourceLines looseLine)[i]? = some line ∧
        (∀ part ∈ looseMethod.parts, part <:+: line) ∧ InOrder looseMethod.parts line := by
  have hmem : looseMethod ∈ (extract looseLine).methods := by decide +kernel
  exact ⟨hmem, extract_wellFormed hmem⟩

end UseCases.Declaration
