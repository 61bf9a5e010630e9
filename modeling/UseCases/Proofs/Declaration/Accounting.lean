/-
Every line of a declaration file is accounted for.

An extraction is a list of candidates, and its methods and diagnostics are two views of that
list.  What is shown here is that the views lose nothing: a line without the marker of a
shape leaves no trace, and a line with one leaves either its method, with one remark for
each parameter that was dropped, or the one remark that says why it was refused.

The argument never looks into a line.  `readLines_on` says that the candidates of a line are
what `readLine?` makes of it, and that they stand nowhere else; `methodsOn_eq` and
`diagnosticsOn_eq` carry that over to the two views.  The only thing needed of a candidate is
that its method and its remarks bear its own line number, and of numbers that they are
written differently when they differ.
-/
import Mathlib
import UseCases.Declaration.Extraction

namespace UseCases.Declaration

open Dart Text

/-! ### What a candidate leaves behind -/

/-- How a remark says which line it is about. -/
def place (number : Nat) : String :=
  "line " ++ toString number

/-- Different lines are written differently. -/
theorem place_injective {m n : Nat} (h : place m = place n) : m = n := by
  have hlist : "line ".toList ++ (toString m).toList = "line ".toList ++ (toString n).toList := by
    rw [← String.toList_append, ← String.toList_append]
    exact congrArg String.toList h
  exact Nat.repr_injective (String.toList_inj.mp (List.append_cancel_left hlist))

namespace Candidate

/-- The method of a candidate is on the candidate's line. -/
def Placed (c : Candidate) : Prop :=
  ∀ m, c.method? = some m → m.line = c.line

/-- Every remark about a candidate is located at its line. -/
theorem location_of_mem_diagnostics {c : Candidate} {d : Diagnostic} (h : d ∈ c.diagnostics) :
    d.location = some (place c.line) := by
  unfold diagnostics at h
  cases hout : c.outcome with
  | declared m entries =>
      simp only [hout, List.mem_map] at h
      obtain ⟨entry, -, rfl⟩ := h
      rfl
  | refused refusal =>
      simp only [hout, List.mem_singleton] at h
      subst h
      rfl

end Candidate

theorem refusal_phase (r : Refusal) : r.diagnostic.phase = extractPhase := by
  cases r <;> rfl

/-- The line of a method is the number that its declaration was read under. -/
theorem readDeclaration_line {shape : Shape} {number : Nat} {line : List Char} {m : Method}
    {dropped : List String} (h : readDeclaration shape number line = .declared m dropped) :
    m.line = number := by
  obtain ⟨header, parameters, -, -, rfl, -⟩ := readDeclaration_eq_declared_iff.mp h
  rfl

theorem readLine?_line {number : Nat} {line : List Char} {c : Candidate}
    (h : readLine? number line = some c) : c.line = number := by
  obtain ⟨shape, -, rfl⟩ := Option.map_eq_some_iff.mp h
  rfl

theorem readLine?_placed {number : Nat} {line : List Char} {c : Candidate}
    (h : readLine? number line = some c) : c.Placed := by
  obtain ⟨shape, -, rfl⟩ := Option.map_eq_some_iff.mp h
  intro m hm
  simp only [Candidate.method?] at hm
  split at hm
  · rename_i method dropped hout
    cases hm
    exact readDeclaration_line hout
  · cases hm

/-! ### The candidates of the lines -/

/-- Candidates come from the lines they are numbered after. -/
theorem mem_readLines {ls : List (List Char)} {c : Candidate} :
    ∀ {number : Nat}, c ∈ readLines number ls →
      number ≤ c.line ∧ ∃ line ∈ ls, readLine? c.line line = some c := by
  induction ls with
  | nil => intro number h; simp [readLines] at h
  | cons line rest ih =>
      intro number h
      simp only [readLines, List.mem_append, Option.mem_toList] at h
      rcases h with h | h
      · have hline := readLine?_line h
        refine ⟨by omega, line, by simp, ?_⟩
        rw [hline]
        exact h
      · obtain ⟨hle, l, hl, hread⟩ := ih h
        exact ⟨by omega, l, by simp [hl], hread⟩

theorem readLines_placed {ls : List (List Char)} {number : Nat} {c : Candidate}
    (h : c ∈ readLines number ls) : c.Placed := by
  obtain ⟨-, line, -, hread⟩ := mem_readLines h
  exact readLine?_placed hread

/-- Every method was declared by a line. -/
theorem declared_of_mem_methods {source : String} {m : Method} (h : m ∈ (extract source).methods) :
    ∃ shape number line dropped, readDeclaration shape number line = .declared m dropped := by
  obtain ⟨c, hc, hmethod⟩ := List.mem_filterMap.mp h
  obtain ⟨-, line, -, hread⟩ := mem_readLines hc
  obtain ⟨shape, -, hcandidate⟩ := Option.map_eq_some_iff.mp hread
  rw [← hcandidate] at hmethod
  simp only [Candidate.method?] at hmethod
  split at hmethod
  · rename_i method dropped hout
    cases hmethod
    exact ⟨shape, c.line, trim line, dropped, hout⟩
  · cases hmethod

/-- No two candidates share a line, and they are in the order of their lines. -/
theorem readLines_sorted (ls : List (List Char)) :
    ∀ number, (readLines number ls).Pairwise fun a b => a.line < b.line := by
  induction ls with
  | nil => intro number; exact List.Pairwise.nil
  | cons line rest ih =>
      intro number
      have hlater : ∀ c ∈ readLines (number + 1) rest, number < c.line :=
        fun c hc => (mem_readLines hc).1
      unfold readLines
      cases hread : readLine? number line with
      | none => exact ih (number + 1)
      | some c =>
          refine List.pairwise_cons.mpr ⟨fun d hd => ?_, ih (number + 1)⟩
          rw [readLine?_line hread]
          exact hlater d hd

/-- **The candidates on a line are what reading that line gives.** -/
theorem readLines_on {ls : List (List Char)} :
    ∀ (number : Nat) {i : Nat} {line : List Char}, ls[i]? = some line →
      (readLines number ls).filter (fun c => c.line == number + i)
        = (readLine? (number + i) line).toList := by
  induction ls with
  | nil => intro number i line h; simp at h
  | cons first rest ih =>
      intro number i line h
      have hfirst : ∀ c ∈ (readLine? number first).toList, c.line = number :=
        fun c hc => readLine?_line (Option.mem_toList.mp hc)
      have hrest : ∀ c ∈ readLines (number + 1) rest, number < c.line :=
        fun c hc => (mem_readLines hc).1
      rw [readLines, List.filter_append]
      cases i with
      | zero =>
          obtain rfl : first = line := by simpa using h
          rw [List.filter_eq_self.mpr (fun c hc => by simp [hfirst c hc]),
            List.filter_eq_nil_iff.mpr (fun c hc => by have := hrest c hc; simp; omega),
            List.append_nil]
          rfl
      | succ i =>
          have htail := ih (number + 1) (i := i) (by simpa using h)
          rw [Nat.add_assoc, Nat.add_comm 1 i] at htail
          rw [htail, List.filter_eq_nil_iff.mpr (fun c hc => by simp [hfirst c hc]),
            List.nil_append]

/-! ### The two views of the candidates -/

/-- The candidates on a line of an extraction. -/
def Extraction.on (e : Extraction) (number : Nat) : List Candidate :=
  e.candidates.filter fun c => c.line == number

/-- The methods on a line of an extraction. -/
def Extraction.methodsOn (e : Extraction) (number : Nat) : List Method :=
  e.methods.filter fun m => m.line == number

/-- The remarks located at a line of an extraction. -/
def Extraction.diagnosticsOn (e : Extraction) (number : Nat) : List Diagnostic :=
  e.diagnostics.filter fun d => d.location == some (place number)

private theorem filterMap_on (number : Nat) :
    ∀ cs : List Candidate, (∀ c ∈ cs, c.Placed) →
      (cs.filterMap Candidate.method?).filter (fun m => m.line == number)
        = (cs.filter fun c => c.line == number).filterMap Candidate.method? := by
  intro cs
  induction cs with
  | nil => intro _; rfl
  | cons c rest ih =>
      intro h
      have ihrest := ih fun d hd => h d (List.mem_cons_of_mem _ hd)
      cases hm : c.method? with
      | none =>
          rw [List.filterMap_cons_none hm, ihrest, List.filter_cons]
          split
          · rw [List.filterMap_cons_none hm]
          · rfl
      | some m =>
          have hline : m.line = c.line := h c (by simp) m hm
          rw [List.filterMap_cons_some hm, List.filter_cons, List.filter_cons, hline]
          split
          · rw [List.filterMap_cons_some hm, ihrest]
          · exact ihrest

/-- A candidate's remarks all stay or all go when one line is looked at. -/
private theorem diagnostics_filter (c : Candidate) (number : Nat) :
    (c.diagnostics.filter fun d => d.location == some (place number))
      = if c.line == number then c.diagnostics else [] := by
  by_cases hc : c.line = number
  · rw [if_pos (by simpa using hc)]
    refine List.filter_eq_self.mpr fun d hd => ?_
    rw [c.location_of_mem_diagnostics hd, hc]
    exact beq_self_eq_true _
  · rw [if_neg (by simpa using hc)]
    refine List.filter_eq_nil_iff.mpr fun d hd => ?_
    rw [c.location_of_mem_diagnostics hd]
    intro heq
    exact hc (place_injective (Option.some.inj (beq_iff_eq.mp heq)))

private theorem flatMap_on (number : Nat) (cs : List Candidate) :
    (cs.flatMap Candidate.diagnostics).filter (fun d => d.location == some (place number))
      = (cs.filter fun c => c.line == number).flatMap Candidate.diagnostics := by
  induction cs with
  | nil => rfl
  | cons c rest ih =>
      rw [List.flatMap_cons, List.filter_append, ih, diagnostics_filter, List.filter_cons]
      split
      · rw [List.flatMap_cons]
      · rfl

theorem methodsOn_eq {e : Extraction} (h : ∀ c ∈ e.candidates, c.Placed) (number : Nat) :
    e.methodsOn number = (e.on number).filterMap Candidate.method? :=
  filterMap_on number e.candidates h

theorem diagnosticsOn_eq (e : Extraction) (number : Nat) :
    e.diagnosticsOn number = (e.on number).flatMap Candidate.diagnostics := by
  unfold Extraction.diagnosticsOn Extraction.diagnostics Extraction.on
  rw [List.filter_append, flatMap_on]
  have hnone : (if e.methods.isEmpty then [Extraction.noMethods] else []).filter
      (fun d => d.location == some (place number)) = [] := by
    split <;> rfl
  rw [hnone, List.append_nil]

/-! ### What becomes of a line

Lines are numbered from one.  A line is read as it is trimmed, so both views are looked at
under the number of the line and compared with what its trimmed text declares.
-/

/-- The lines of a source without its comments. -/
def sourceLines (source : String) : List (List Char) :=
  lines (stripComments source.toList)

/-- The line left no trace in the extraction. -/
def Extraction.Silent (e : Extraction) (number : Nat) : Prop :=
  e.methodsOn number = [] ∧ e.diagnosticsOn number = []

/-- The line declares one method.  What was dropped from its parameter list is remarked on
entry by entry, in the order of the entries, and nothing else is. -/
def Extraction.Declares (e : Extraction) (number : Nat) (line : List Char) : Prop :=
  ∃ shape header parameters method,
    classify line = some shape ∧ header? shape line = some header ∧
    enclosed? '(' ')' header.rest = some parameters ∧
    e.methodsOn number = [method] ∧ method.line = number ∧
    method.parameters = accepted (entries parameters.inside) ∧
    e.diagnosticsOn number = (rejected (entries parameters.inside)).map fun entry =>
      (Candidate.droppedParameter method entry).onLine number

/-- The line is refused for one reason, which is the only remark about it. -/
def Extraction.Refuses (e : Extraction) (number : Nat) : Prop :=
  e.methodsOn number = [] ∧ ∃ d, e.diagnosticsOn number = [d] ∧ d.phase = extractPhase

theorem classify_nil : classify [] = none := by decide

/-- A line is silent, declares or is refused as its own reading says. -/
theorem extract_on (source : String) {i : Nat} {line : List Char}
    (h : (sourceLines source)[i]? = some line) :
    (extract source).on (i + 1) = (readLine? (i + 1) line).toList := by
  have hon := readLines_on 1 h
  rw [Nat.add_comm 1 i] at hon
  exact hon

theorem extract_placed (source : String) :
    ∀ c ∈ (extract source).candidates, c.Placed :=
  fun _ hc => readLines_placed hc

theorem extract_silent (source : String) {i : Nat} {line : List Char}
    (h : (sourceLines source)[i]? = some line) (hclass : classify (trim line) = none) :
    (extract source).Silent (i + 1) := by
  have hon : (extract source).on (i + 1) = [] := by
    rw [extract_on source h, readLine?, hclass]
    rfl
  refine ⟨?_, ?_⟩
  · rw [methodsOn_eq (extract_placed source), hon]
    rfl
  · rw [diagnosticsOn_eq, hon]
    rfl

theorem extract_declares_or_refuses (source : String) {i : Nat} {line : List Char}
    (h : (sourceLines source)[i]? = some line) {shape : Shape}
    (hclass : classify (trim line) = some shape) :
    (extract source).Declares (i + 1) (trim line) ∨ (extract source).Refuses (i + 1) := by
  have hon : (extract source).on (i + 1)
      = [⟨i + 1, readDeclaration shape (i + 1) (trim line)⟩] := by
    rw [extract_on source h, readLine?, hclass]
    rfl
  have hmethods : (extract source).methodsOn (i + 1)
      = [⟨i + 1, readDeclaration shape (i + 1) (trim line)⟩].filterMap Candidate.method? := by
    rw [methodsOn_eq (extract_placed source), hon]
  have hremarks : (extract source).diagnosticsOn (i + 1)
      = [⟨i + 1, readDeclaration shape (i + 1) (trim line)⟩].flatMap Candidate.diagnostics := by
    rw [diagnosticsOn_eq, hon]
  unfold readDeclaration at hmethods hremarks
  cases hheader : header? shape (trim line) with
  | none =>
      rw [hheader] at hmethods hremarks
      exact Or.inr ⟨hmethods, _, hremarks, refusal_phase _⟩
  | some header =>
      cases hlist : enclosed? '(' ')' header.rest with
      | none =>
          simp only [hheader, hlist] at hmethods hremarks
          exact Or.inr ⟨hmethods, _, hremarks, refusal_phase _⟩
      | some parameters =>
          simp only [hheader, hlist] at hmethods hremarks
          refine Or.inl ⟨shape, header, parameters, _, hclass, hheader, hlist, hmethods, rfl,
            rfl, ?_⟩
          rw [hremarks]
          simp [Candidate.diagnostics]

theorem not_declares_and_refuses {e : Extraction} {number : Nat} {line : List Char}
    (hd : e.Declares number line) (hr : e.Refuses number) : False := by
  obtain ⟨_, _, _, method, -, -, -, hm, -⟩ := hd
  rw [hr.1] at hm
  cases hm

/-! ### The order of the views, and the remark about a file without methods -/

theorem methods_sorted (source : String) :
    ((extract source).methods.map Method.line).Pairwise (· < ·) := by
  rw [List.pairwise_map]
  refine List.Pairwise.filterMap Candidate.method? ?_
    ((readLines_sorted _ 1).imp_of_mem (S := fun a b => a.Placed ∧ b.Placed ∧ a.line < b.line)
      fun ha hb hlt => ⟨readLines_placed ha, readLines_placed hb, hlt⟩)
  rintro a b ⟨ha, hb, hlt⟩ m hm n hn
  rw [ha m hm, hb n hn]
  exact hlt

/-- The lines that the located remarks are about, one for each remark. -/
def Extraction.remarkedLines (e : Extraction) : List Nat :=
  e.candidates.flatMap fun c => c.diagnostics.map fun _ => c.line

private theorem locations_flatMap (cs : List Candidate) :
    (cs.flatMap Candidate.diagnostics).filterMap Diagnostic.location
      = (cs.flatMap fun c => c.diagnostics.map fun _ => c.line).map place := by
  induction cs with
  | nil => rfl
  | cons c rest ih =>
      have hc : c.diagnostics.filterMap Diagnostic.location
          = (c.diagnostics.map fun _ => c.line).map place := by
        rw [List.map_map, ← List.filterMap_eq_map]
        exact List.filterMap_congr fun d hd => c.location_of_mem_diagnostics hd
      rw [List.flatMap_cons, List.flatMap_cons, List.filterMap_append, List.map_append, ih, hc]

theorem locations_eq (e : Extraction) :
    e.diagnostics.filterMap Diagnostic.location = e.remarkedLines.map place := by
  unfold Extraction.diagnostics
  rw [List.filterMap_append, locations_flatMap]
  have hnone : (if e.methods.isEmpty then [Extraction.noMethods] else []).filterMap
      Diagnostic.location = [] := by
    split <;> rfl
  rw [hnone, List.append_nil]
  rfl

private theorem remarked_sorted :
    ∀ cs : List Candidate, cs.Pairwise (fun a b => a.line < b.line) →
      (cs.flatMap fun c => c.diagnostics.map fun _ => c.line).Pairwise (· ≤ ·) := by
  intro cs
  induction cs with
  | nil => intro _; exact List.Pairwise.nil
  | cons c rest ih =>
      intro h
      obtain ⟨hlater, hrest⟩ := List.pairwise_cons.mp h
      rw [List.flatMap_cons]
      refine List.pairwise_append.mpr ⟨?_, ih hrest, ?_⟩
      · rw [List.pairwise_map]
        exact List.pairwise_of_forall fun _ _ => Nat.le_refl _
      · intro a ha b hb
        obtain ⟨-, -, rfl⟩ := List.mem_map.mp ha
        obtain ⟨d, hd, hbd⟩ := List.mem_flatMap.mp hb
        obtain ⟨-, -, rfl⟩ := List.mem_map.mp hbd
        exact Nat.le_of_lt (hlater d hd)

/-- The remark about a file without methods is the only one without a place. -/
theorem unlocated_eq (e : Extraction) :
    e.diagnostics.filter (fun d => d.location == none)
      = if e.methods = [] then [Extraction.noMethods] else [] := by
  have hlocated : (e.candidates.flatMap Candidate.diagnostics).filter
      (fun d => d.location == none) = [] := by
    refine List.filter_eq_nil_iff.mpr fun d hd => ?_
    obtain ⟨c, -, hdc⟩ := List.mem_flatMap.mp hd
    rw [c.location_of_mem_diagnostics hdc]
    exact Bool.false_ne_true
  unfold Extraction.diagnostics
  rw [List.filter_append, hlocated, List.nil_append]
  cases e.methods with
  | nil => rfl
  | cons m rest => rfl

theorem noMethods_last {e : Extraction} (h : e.methods = []) :
    e.diagnostics.getLast? = some Extraction.noMethods := by
  unfold Extraction.diagnostics
  rw [h]
  exact List.getLast?_concat

/--
**No declaration is lost silently, and none is counted twice.**  A line that is blank or
bears no marker leaves no trace.  Any other line either declares one method or is refused
with one remark, and never both.  Methods are in the strict order of their lines, located
remarks in the order of theirs, and a file without methods is remarked on once, at the end.
-/
theorem extract_accounts_for_every_line (source : String) :
    (∀ i : Fin (sourceLines source).length,
      let line := trim (sourceLines source)[i]
      let number := i.val + 1
      (line = [] ∨ classify line = none → (extract source).Silent number) ∧
      (line ≠ [] → classify line ≠ none →
        Xor ((extract source).Declares number line) ((extract source).Refuses number))) ∧
    ((extract source).methods.map Method.line).Pairwise (· < ·) ∧
    (extract source).diagnostics.filterMap Diagnostic.location
      = (extract source).remarkedLines.map place ∧
    (extract source).remarkedLines.Pairwise (· ≤ ·) ∧
    (extract source).diagnostics.filter (fun d => d.location == none)
      = (if (extract source).methods = [] then [Extraction.noMethods] else []) ∧
    ((extract source).methods = [] →
      (extract source).diagnostics.getLast? = some Extraction.noMethods) := by
  refine ⟨fun i => ?_, methods_sorted source, locations_eq _, remarked_sorted _
    (readLines_sorted _ 1), unlocated_eq _, noMethods_last⟩
  have hline : (sourceLines source)[i.val]? = some (sourceLines source)[i] :=
    List.getElem?_eq_getElem i.isLt
  refine ⟨fun h => ?_, fun _ hclass => ?_⟩
  · refine extract_silent source hline ?_
    rcases h with hblank | hnone
    · rw [hblank, classify_nil]
    · exact hnone
  · obtain ⟨shape, hshape⟩ := Option.ne_none_iff_exists'.mp hclass
    rcases extract_declares_or_refuses source hline hshape with hd | hr
    · exact Or.inl ⟨hd, fun hr => not_declares_and_refuses hd hr⟩
    · exact Or.inr ⟨hr, fun hd => not_declares_and_refuses hd hr⟩

end UseCases.Declaration
