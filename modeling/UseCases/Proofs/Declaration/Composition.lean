/-
Extraction, line by line.

A declaration stands on one line, so a file may be cut after any line at which its reader stands
in code, and what is extracted of its parts put together is what is extracted of the whole.  The
one thing that a line learns of the lines before it is their number: read further down, it
leaves the same candidate further down.

The argument has two halves.  The lines of the whole are those of the two stripped parts
(`sourceLines_append`), and reading lines that are numbered from a later number on moves the
candidates and changes nothing else of them (`readLines_moved`).  Both views of the candidates
carry that over.  The remark about a file without methods is about the whole file, and it is
the one that does not compose.
-/
import UseCases.Proofs.Dart.Stripping
import UseCases.Proofs.Declaration.Accounting

namespace UseCases.Declaration

open Dart Text

/-! ### Further down -/

/-- The method, declared `shift` lines further down. -/
def Method.moved (shift : Nat) (m : Method) : Method :=
  { m with line := m.line + shift }

/-- What a line turns out to be when it stands `shift` lines further down. -/
def Outcome.moved (shift : Nat) : Outcome → Outcome
  | .declared method dropped => .declared (method.moved shift) dropped
  | .refused refusal => .refused refusal

/-- The candidate, `shift` lines further down. -/
def Candidate.moved (shift : Nat) (c : Candidate) : Candidate :=
  ⟨c.line + shift, c.outcome.moved shift⟩

/-- The same remark about a line that stands `shift` lines further down. -/
def Diagnostic.MovedDown (shift : Nat) (d e : Diagnostic) : Prop :=
  ∃ remark line, d = onLine remark line ∧ e = onLine remark (line + shift)

theorem method?_moved (shift : Nat) (c : Candidate) :
    (c.moved shift).method? = c.method?.map (Method.moved shift) := by
  obtain ⟨line, outcome⟩ := c
  cases outcome <;> rfl

/-- The remarks about a candidate name its line and are otherwise the same further down. -/
theorem diagnostics_moved (shift : Nat) (c : Candidate) :
    List.Forall₂ (Diagnostic.MovedDown shift) c.diagnostics (c.moved shift).diagnostics := by
  obtain ⟨line, outcome⟩ := c
  cases outcome with
  | refused refusal => exact .cons ⟨refusal.diagnostic, line, rfl, rfl⟩ .nil
  | declared method dropped =>
      simp only [Candidate.moved, Outcome.moved, Candidate.diagnostics, List.forall₂_map_left_iff,
        List.forall₂_map_right_iff, List.forall₂_same]
      exact fun entry _ => ⟨Candidate.droppedParameter method entry, line, rfl, rfl⟩

/-! ### The lines -/

theorem readDeclaration_moved (shape : Shape) (number shift : Nat) (line : List Char) :
    readDeclaration shape (number + shift) line
      = (readDeclaration shape number line).moved shift := by
  unfold readDeclaration
  split
  · rfl
  · split <;> rfl

theorem readLine?_moved (number shift : Nat) (line : List Char) :
    readLine? (number + shift) line = (readLine? number line).map (Candidate.moved shift) := by
  simp only [readLine?, readDeclaration_moved, Option.map_map]
  rfl

/-- **Lines that stand further down leave the same candidates further down.** -/
theorem readLines_moved (number shift : Nat) (ls : List (List Char)) :
    readLines (number + shift) ls = (readLines number ls).map (Candidate.moved shift) := by
  induction ls generalizing number with
  | nil => rfl
  | cons line rest ih =>
      rw [readLines, readLines, List.map_append, readLine?_moved, ← ih,
        Nat.add_right_comm number shift 1]
      cases readLine? number line <;> rfl

theorem readLines_append (number : Nat) (ls more : List (List Char)) :
    readLines number (ls ++ more) = readLines number ls ++ readLines (number + ls.length) more := by
  induction ls generalizing number with
  | nil => rfl
  | cons line rest ih =>
      have hnumber : number + 1 + rest.length = number + (line :: rest).length := by
        rw [List.length_cons]
        omega
      rw [List.cons_append, readLines, readLines, ih, List.append_assoc, hnumber]

theorem sourceLines_append {a : String} (h : Region.code.after (a.toList ++ ['\n']) = .code)
    (b : String) : sourceLines (a ++ "\n" ++ b) = sourceLines a ++ sourceLines b := by
  have htext : (a ++ "\n" ++ b).toList = a.toList ++ '\n' :: b.toList := by
    simp [String.toList_append]
  rw [sourceLines, htext, stripComments_append_newline h, lines_append]
  rfl

theorem length_sourceLines (source : String) :
    (sourceLines source).length = source.toList.count '\n' + 1 := by
  rw [sourceLines, length_lines, count_newline_stripComments]

/-- The candidates of a file are those of its parts. -/
theorem candidates_append {a : String} (h : Region.code.after (a.toList ++ ['\n']) = .code)
    (b : String) :
    (extract (a ++ "\n" ++ b)).candidates = (extract a).candidates
      ++ (extract b).candidates.map (Candidate.moved (a.toList.count '\n' + 1)) := by
  show readLines 1 (sourceLines (a ++ "\n" ++ b)) = readLines 1 (sourceLines a)
    ++ (readLines 1 (sourceLines b)).map (Candidate.moved (a.toList.count '\n' + 1))
  rw [sourceLines_append h, readLines_append, length_sourceLines, readLines_moved]

/-! ### The views -/

/-- The remarks that name a line. -/
def Extraction.located (e : Extraction) : List Diagnostic :=
  e.diagnostics.filter fun d => d.location.isSome

theorem located_eq (e : Extraction) : e.located = e.candidates.flatMap Candidate.diagnostics := by
  have hall : ∀ d ∈ e.candidates.flatMap Candidate.diagnostics, d.location.isSome = true := by
    intro d hd
    obtain ⟨c, -, hdc⟩ := List.mem_flatMap.mp hd
    rw [c.location_of_mem_diagnostics hdc]
    rfl
  have hnone : (if e.methods.isEmpty then [Extraction.noMethods] else []).filter
      (fun d => d.location.isSome) = [] := by
    split <;> rfl
  rw [Extraction.located, Extraction.diagnostics, List.filter_append, List.filter_eq_self.mpr hall,
    hnone, List.append_nil]

theorem methods_moved (shift : Nat) (cs : List Candidate) :
    (cs.map (Candidate.moved shift)).filterMap Candidate.method?
      = (cs.filterMap Candidate.method?).map (Method.moved shift) := by
  rw [List.filterMap_map, List.map_filterMap]
  exact List.filterMap_congr fun c _ => method?_moved shift c

theorem remarks_moved (shift : Nat) (cs : List Candidate) :
    List.Forall₂ (Diagnostic.MovedDown shift) (cs.flatMap Candidate.diagnostics)
      ((cs.map (Candidate.moved shift)).flatMap Candidate.diagnostics) := by
  induction cs with
  | nil => exact .nil
  | cons c rest ih => exact List.rel_append (diagnostics_moved shift c) ih

/--
**Extraction is compositional over lines.**  When the reader of `a` stands in code after one more
newline, the methods of `a` and `b` on lines of one file are the methods of `a`, followed by those
of `b` as many lines further down as `a` has lines.  The remarks that name a line compose in the
same way, and the one that names none is made exactly when neither part has a method.
-/
theorem extract_composes (a b : String) (h : Region.code.after (a.toList ++ ['\n']) = .code) :
    let below := a.toList.count '\n' + 1
    let whole := extract (a ++ "\n" ++ b)
    whole.methods = (extract a).methods ++ (extract b).methods.map (Method.moved below) ∧
    (∃ remarks, List.Forall₂ (Diagnostic.MovedDown below) (extract b).located remarks ∧
      whole.located = (extract a).located ++ remarks) ∧
    whole.diagnostics.filter (fun d => d.location == none)
      = if (extract a).methods = [] ∧ (extract b).methods = [] then [Extraction.noMethods]
        else [] := by
  intro below whole
  have hcandidates : whole.candidates
      = (extract a).candidates ++ (extract b).candidates.map (Candidate.moved below) :=
    candidates_append h b
  have hmethods : whole.methods
      = (extract a).methods ++ (extract b).methods.map (Method.moved below) := by
    rw [Extraction.methods, hcandidates, List.filterMap_append, methods_moved]
    rfl
  have hlocated : whole.located = (extract a).located
      ++ ((extract b).candidates.map (Candidate.moved below)).flatMap Candidate.diagnostics := by
    rw [located_eq, located_eq, hcandidates, List.flatMap_append]
  refine ⟨hmethods, ⟨_, ?_, hlocated⟩, ?_⟩
  · rw [located_eq]
    exact remarks_moved below (extract b).candidates
  · rw [unlocated_eq, hmethods]
    simp only [List.append_eq_nil_iff, List.map_eq_nil_iff]

/-- A comment that ends with its line, and a literal that the end of its line closes. -/
def openingLines : String :=
  "Future<void> open(); // it's \"open\n  const mark = 'a\\'b\\\\"

/-- A line that ends in a carriage return and loses a parameter, and one without a header. -/
def watchingLines : String :=
  "  Stream<int> watch(this.x);\r\nFuture<int>"

theorem openingLines_compose :
    Region.code.after (openingLines.toList ++ ['\n']) = .code ∧
      (extract (openingLines ++ "\n" ++ watchingLines)).methods.map (fun m => (m.name, m.line))
        = [("open", 1), ("watch", 3)] ∧
      (extract (openingLines ++ "\n" ++ watchingLines)).located.length = 2 ∧
      (extract (openingLines ++ "\n" ++ watchingLines)).diagnostics.filter
        (fun d => d.location == none) = [] := by
  have hcode : Region.code.after (openingLines.toList ++ ['\n']) = .code := by decide
  obtain ⟨hmethods, ⟨remarks, hmoved, hlocated⟩, hlast⟩ :=
    extract_composes openingLines watchingLines hcode
  refine ⟨hcode, ?_, ?_, ?_⟩
  · rw [hmethods]
    decide +kernel
  · rw [hlocated, List.length_append, ← hmoved.length_eq]
    decide +kernel
  · rw [hlast]
    decide +kernel

end UseCases.Declaration
