/-
The physical line behind a line number.

Lines are numbered after the comments are gone.  Stripping keeps every newline and takes each line
to a part of itself, so the line that is numbered `n` there is what is left of the line numbered `n`
in the file, and whatever is read from the one consists of characters of the other: the parts of a
method, and the text that a remark quotes.

Stripping a second time changes nothing, so a file and the same file without its comments have the
same methods and the same remarks on the same lines.
-/
import UseCases.Proofs.Dart.StrippedText
import UseCases.Proofs.Declaration.Composition
import UseCases.Proofs.Declaration.Coverage
import UseCases.Proofs.Declaration.MethodParts

namespace UseCases.Declaration

open Dart Text

variable {line text : List Char}

/-! ### What is quoted -/

/-- What the remark about a refused line quotes of it. -/
def Refusal.quoted : Refusal → String
  | .getter name => name
  | .unrecognized _ line => line
  | .unclosed name => name

/-- A remark about the line of that number, and what it quotes of it. -/
inductive Diagnostic.Quotes (number : Nat) : Diagnostic → String → Prop
  | refused (refusal : Refusal) :
      Quotes number (refusal.diagnostic.onLine number) refusal.quoted
  | dropped (method : Method) (entry : String) :
      Quotes number ((Candidate.droppedParameter method entry).onLine number) entry

/-- The name of a getter stands in its line. -/
theorem infix_of_getter? {name : List Char} (h : getter? line = some name) : name <:+: line := by
  obtain ⟨rest, hsuffix, hread⟩ := exists_of_firstMatch? h
  simp only [readGetter?, Option.bind_eq_bind, Option.bind_eq_some_iff,
    Option.ite_none_right_eq_some, Option.some.injEq] at hread
  obtain ⟨behind, hclosing, keyword, hkeyword, later, hskip, lexeme, hname, -, rfl⟩ := hread
  obtain ⟨blanks, -, hbehind⟩ := exists_skipBlanks behind
  obtain ⟨more, -, -, hlater⟩ := skipSomeBlanks?_split hskip
  obtain ⟨-, htext⟩ := readName?_split hname
  have hwithin : lexeme.token <:+: rest := by
    refine ⟨['>'] ++ (blanks ++ ("get".toList ++ more)), lexeme.rest, ?_⟩
    rw [after?_eq_some.mp hclosing, hbehind, after?_eq_some.mp hkeyword, hlater, htext]
    simp
  exact hwithin.trans hsuffix.isInfix

/-- An entry that is rejected stands in its list. -/
theorem infix_of_mem_rejected {entry : String} (h : entry ∈ rejected (entries text)) :
    entry.toList <:+: text := by
  obtain ⟨e, he, hentry⟩ := List.mem_filterMap.mp h
  rw [entries_eq_map] at he
  obtain ⟨found, hfound, rfl⟩ := List.mem_map.mp he
  obtain ⟨front, htext, horder⟩ := reached_inOrder text
  have hwithin := horder.infix_of_mem (List.mem_map_of_mem hfound)
  cases hread : readParameter? found.1 found.2 with
  | some p => simp [Entry.read, hread] at hentry
  | none =>
      obtain rfl : String.ofList found.2 = entry := by simpa [Entry.read, hread] using hentry
      rw [String.toList_ofList, htext]
      exact hwithin.trans (List.prefix_append front (behindGroup text)).isInfix

/-- What a refusal quotes stands in the line that is refused. -/
theorem infix_of_refused {shape : Shape} {number : Nat} {refusal : Refusal}
    (h : readDeclaration shape number line = .refused refusal) :
    refusal.quoted.toList <:+: line := by
  rcases readDeclaration_eq_refused_iff.mp h with ⟨-, rfl⟩ | ⟨header, hheader, -, rfl⟩
  · unfold refuse
    split
    · rename_i name hname
      rw [Refusal.quoted, String.toList_ofList]
      exact infix_of_getter? hname
    · rw [Refusal.quoted, String.toList_ofList]
  · rw [Refusal.quoted, String.toList_ofList]
    exact ((heads_of_header? hheader).order [] (.nil _)).infix_of_mem (by simp)

/-- An entry that a declaration drops stands in its line. -/
theorem infix_of_mem_dropped {shape : Shape} {number : Nat} {m : Method} {dropped : List String}
    (h : readDeclaration shape number line = .declared m dropped) {entry : String}
    (hentry : entry ∈ dropped) : entry.toList <:+: line := by
  obtain ⟨header, parameters, hheader, hclosed, -, rfl⟩ := readDeclaration_eq_declared_iff.mp h
  have hinside : parameters.inside <:+: header.rest :=
    ⟨[], ')' :: parameters.after, (enclosed?_split hclosed).symm⟩
  have hrest := (List.suffix_cons '(' header.rest).trans (opened_of_header? hheader)
  exact ((infix_of_mem_rejected hentry).trans hinside).trans hrest.isInfix

/-- **What a remark quotes stands in the line of the candidate** that it is about. -/
theorem quotes_of_readLine? {number : Nat} {c : Candidate} (h : readLine? number line = some c)
    {d : Diagnostic} (hd : d ∈ c.diagnostics) :
    ∃ quoted, d.Quotes number quoted ∧ quoted.toList <:+: line := by
  obtain ⟨shape, -, rfl⟩ := Option.map_eq_some_iff.mp h
  cases hout : readDeclaration shape number (trim line) with
  | refused refusal =>
      simp only [Candidate.diagnostics, hout, List.mem_singleton] at hd
      exact ⟨refusal.quoted, hd ▸ .refused refusal,
        (infix_of_refused hout).trans (infix_trim line)⟩
  | declared m dropped =>
      simp only [Candidate.diagnostics, hout, List.mem_map] at hd
      obtain ⟨entry, hentry, rfl⟩ := hd
      exact ⟨entry, .dropped m entry, (infix_of_mem_dropped hout hentry).trans (infix_trim line)⟩

/-- The parts of a method stand in the line that declares it. -/
theorem parts_inOrder {shape : Shape} {number : Nat} {m : Method} {dropped : List String}
    (h : readDeclaration shape number line = .declared m dropped) : InOrder m.parts line := by
  obtain ⟨header, parameters, hheader, hclosed, rfl, -⟩ := readDeclaration_eq_declared_iff.mp h
  rw [Method.parts, String.toList_ofList, String.toList_ofList]
  refine (heads_of_header? hheader).order _ ?_
  rw [enclosed?_split hclosed]
  exact (entries_inOrder parameters.inside).within (List.prefix_append _ _).isInfix

/-! ### Physical lines -/

/-- The lines of a file as it stands, with its comments. -/
def physicalLines (source : String) : List (List Char) :=
  lines source.toList

/-- **What is left of a line** bears the number of the line. -/
theorem physical_of_sourceLine (source : String) {i : Nat} {line : List Char}
    (h : (sourceLines source)[i]? = some line) :
    ∃ physical, (physicalLines source)[i]? = some physical ∧ line.Sublist physical := by
  have hlines := lines_stripComments source.toList
  obtain ⟨hi, rfl⟩ := List.getElem?_eq_some_iff.mp h
  have hlength : i < (physicalLines source).length := hlines.length_eq ▸ hi
  exact ⟨(physicalLines source)[i], List.getElem?_eq_getElem hlength, hlines.get hi hlength⟩

theorem sublist_of_inOrder {parts : List (List Char)} (h : InOrder parts text) :
    parts.flatten.Sublist text := by
  induction parts generalizing text with
  | nil => exact List.nil_sublist text
  | cons part parts ih =>
      obtain ⟨gap, rest, rfl, hrest⟩ := h
      rw [List.flatten_cons]
      exact ((List.Sublist.refl part).append (ih hrest)).trans (List.sublist_append_right gap _)

/--
**Lines are numbered as in the file.**  A file without its comments has no comments, and so the same
is extracted of it as of the file; and its lines are parts of the lines of the file, as many and in
the same order.  So the number that a method or a remark bears is that of a line in the file: the
method was read off what is left of that line, and the parts of the method, one after the other,
and what a remark quotes are characters of that line in their order.
-/
theorem extract_keeps_line_numbers (source : String) :
    stripComments (stripComments source.toList) = stripComments source.toList ∧
    extract (String.ofList (stripComments source.toList)) = extract source ∧
    List.Forall₂ List.Sublist (sourceLines source) (physicalLines source) ∧
    (∀ m ∈ (extract source).methods, ∃ i physical line dropped, m.line = i + 1 ∧
      (physicalLines source)[i]? = some physical ∧ line.Sublist physical ∧
      readDeclaration m.shape (i + 1) (trim line) = .declared m dropped ∧
      m.parts.flatten.Sublist physical) ∧
    ∀ d ∈ (extract source).located, ∃ i physical quoted, d.Quotes (i + 1) quoted ∧
      (physicalLines source)[i]? = some physical ∧ quoted.toList.Sublist physical := by
  have htwice := stripComments_stripComments source.toList
  refine ⟨htwice, ?_, lines_stripComments source.toList, fun m hm => ?_, fun d hd => ?_⟩
  · rw [extract, extract, String.toList_ofList, htwice]
  · obtain ⟨i, line, dropped, hline, hnumber, -, hdeclared⟩ := declared_on hm
    obtain ⟨physical, hphysical, hsublist⟩ := physical_of_sourceLine source hline
    have horder := (parts_inOrder hdeclared).within (infix_trim line)
    exact ⟨i, physical, line, dropped, hnumber, hphysical, hsublist, hdeclared,
      (sublist_of_inOrder horder).trans hsublist⟩
  · rw [located_eq] at hd
    obtain ⟨c, hc, hd⟩ := List.mem_flatMap.mp hd
    obtain ⟨i, line, hline, hread⟩ := exists_of_mem_readLines hc
    rw [Nat.add_comm 1 i] at hread
    obtain ⟨physical, hphysical, hsublist⟩ := physical_of_sourceLine source hline
    obtain ⟨quoted, hquotes, hwithin⟩ := quotes_of_readLine? hread hd
    exact ⟨i, physical, quoted, hquotes, hphysical, hwithin.sublist.trans hsublist⟩

/-- A file with comments inside and around its declarations, a literal that goes on after an escaped
newline, and a comment that nothing closes. -/
def annotatedSource : String :=
  "/* Future<void> a();\n ' */ Stream<int>/* of */ watch(int /*,*/ a, this.b); // it's\n"
    ++ "Future<int> get x; /*\n\n*/Future<\nconst s = '\\\n'; Future<void> go() /* ; /* b(); */"

theorem annotatedSource_keeps_line_numbers :
    ((extract annotatedSource).methods.map fun m => (m.name, m.line)) = [("watch", 2)] ∧
      (extract annotatedSource).located.map Diagnostic.location
        = [some "line 2", some "line 3", some "line 5"] ∧
      extract (String.ofList (stripComments annotatedSource.toList)) = extract annotatedSource ∧
      ∃ i physical, 2 = i + 1 ∧ (physicalLines annotatedSource)[i]? = some physical ∧
        "intwatchinta".toList.Sublist physical := by
  obtain ⟨-, hsame, -, hmethods, -⟩ := extract_keeps_line_numbers annotatedSource
  have hread : (extract annotatedSource).methods
      = [⟨"watch", "int", [⟨"int", "a", .positional, none⟩], .stream, 2⟩] := by decide +kernel
  have hlocated : (extract annotatedSource).located.map Diagnostic.location
      = [some "line 2", some "line 3", some "line 5"] := by decide +kernel
  rw [hread] at hmethods ⊢
  obtain ⟨i, physical, -, -, hnumber, hphysical, -, -, hparts⟩ :=
    hmethods _ (List.mem_singleton.mpr rfl)
  exact ⟨rfl, hlocated, hsame, i, physical, hnumber, hphysical, hparts⟩

end UseCases.Declaration
