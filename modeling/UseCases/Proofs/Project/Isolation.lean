/-
Failures that are isolated.

Every declaration file of a run has one entry in the report, among the declarations or among the
failures, in the order of the files.  A declaration lists the units of all its methods in the order
in which they are declared, each use case before the holder of its arguments.

A declaration file that cannot be opened fails for itself: the report of the others and the tree are
what they would be without it.  Of a declaration file that is opened this is not so.  It may fail
after it has written some of its files, and what they are there for the others to find.
-/
import UseCases.Proofs.Project.Request
import UseCases.Proofs.Project.Turns

namespace UseCases.Project

open Declaration Files Generation Report

variable {o : GenerateOptions} {w v : World} {path : Path} {paths : List Path}

/-! ### The units of a declaration -/

/-- The types that are generated for a method, the use case before the holder of its arguments. -/
def unitTypes (mode : Mode) (method : Method) : List String :=
  match mode with
  | .simple => [useCaseType method.name]
  | .professional => [useCaseType method.name, paramsType method.name]

/-- The number of units of a method. -/
def unitsPerMethod : Mode → Nat
  | .simple => 1
  | .professional => 2

theorem length_unitTypes (mode : Mode) (method : Method) :
    (unitTypes mode method).length = unitsPerMethod mode := by
  cases mode <;> rfl

theorem fileNames_units (method : Method) (repository : String) (mode : Mode)
    (context : ImportContext) :
    (units method method.name repository mode context).map GeneratedUnit.fileName =
      (unitTypes mode method).map fileName := by
  cases mode <;> rfl

/-- The paths of a declaration's units. -/
def unitPaths (o : GenerateOptions) (path : Path) (methods : List Method) : List Path :=
  methods.flatMap fun method =>
    (unitTypes o.mode method).map fun type => (o.outputFor path).join (fileName type)

theorem length_unitPaths (o : GenerateOptions) (path : Path) (methods : List Method) :
    (unitPaths o path methods).length = methods.length * unitsPerMethod o.mode := by
  simp [unitPaths, List.length_flatMap, length_unitTypes]

theorem paths_files (o : GenerateOptions) (path : Path) (d : Opened) :
    (d.files o path).map OutputFile.path = unitPaths o path d.methods := by
  rw [Opened.files, GenerateOptions.filesFor, unitPaths, List.map_flatMap]
  refine List.flatMap_congr fun method _ => ?_
  have hnames := congrArg (List.map (o.outputFor path).join)
    (fileNames_units method d.repository o.mode (o.contextFor path))
  rw [List.map_map, List.map_map] at hnames
  rw [List.map_map]
  exact hnames

theorem path_of_produce {dryRun : Bool} {file : OutputFile} {outcome : UnitOutcome}
    (h : (produce dryRun file : Session (Except Failure UnitOutcome)) w = (.ok outcome, v)) :
    outcome.path = file.path := by
  unfold produce at h
  split at h
  · cases h
    rfl
  · obtain ⟨written, u, -, h⟩ := session_bind_cases h
    cases written with
    | error failure => cases h
    | ok done => cases done <;> cases h <;> rfl

/-- What is told of files has their paths. -/
theorem paths_of_produceAll {dryRun : Bool} {files : List OutputFile} {units : List UnitOutcome}
    (h : (produceAll dryRun files : Session (Except Failure (List UnitOutcome))) w = (.ok units, v)) :
    units.map UnitOutcome.path = files.map OutputFile.path := by
  induction files generalizing w v units with
  | nil =>
      cases h
      rfl
  | cons file files ih =>
      obtain ⟨first, u, hfirst, h⟩ := session_bind_cases h
      cases first with
      | error failure => cases h
      | ok outcome =>
          obtain ⟨others, x, hothers, h⟩ := session_bind_cases h
          cases others with
          | error failure => cases h
          | ok outcomes =>
              cases h
              rw [List.map_cons, List.map_cons, ih hothers, path_of_produce hfirst]

/-- A report is that of a declaration file that was opened, and of all its units. -/
theorem report_of_generateFile {report : DeclarationReport}
    (h : ((generateFile o path : Session (Except Failure DeclarationReport)) w).1 = .ok report) :
    ∃ d, openAt o w path = .ok d ∧ report = d.report path report.units ∧
      report.units.map UnitOutcome.path = unitPaths o path d.methods := by
  obtain ⟨d, u, hopen, -, hproduced, hreport⟩ := opened_of_generateFile h
  refine ⟨d, hopen, hreport, ?_⟩
  rw [paths_of_produceAll (Prod.ext hproduced rfl)]
  exact paths_files o path d

/-! ### Declaration files that are left out -/

/-- **Without a declaration file that is refused the others come to the same.** -/
theorem runAll_eraseIdx {i : Nat} {turn : Turn} (hturn : (turns o paths w)[i]? = some turn)
    (hrefused : turn.IsRefused o) :
    entries o (paths.eraseIdx i) w = (entries o paths w).eraseIdx i ∧
      (runAll o (paths.eraseIdx i) w).2.Still (runAll o paths w).2 := by
  induction paths generalizing w i with
  | nil => cases hturn
  | cons path paths ih =>
      cases i with
      | zero =>
          obtain rfl : (⟨path, w⟩ : Turn) = turn := Option.some.inj hturn
          have hstill := still_of_isRefused hrefused
          rw [List.eraseIdx_cons_zero, entries_cons, List.eraseIdx_cons_zero,
            entries_still hstill, runAll_cons]
          exact ⟨rfl, (logBlind_runAll o paths _ _ hstill).2⟩
      | succ i =>
          rw [turns_cons, List.getElem?_cons_succ] at hturn
          obtain ⟨hentries, hstill⟩ := ih hturn
          have hrest : ∀ paths, (runAll o (path :: paths) w).2 =
              (runAll o paths (runAll o [path] w).2).2 := fun paths => by rw [runAll_cons]
          rw [List.eraseIdx_cons_succ, entries_cons, entries_cons, List.eraseIdx_cons_succ, hentries,
            hrest (paths.eraseIdx i), hrest paths]
          exact ⟨rfl, hstill⟩

/-! ### Runs -/

/-- The declaration file that an entry of a report is about. -/
def entryPath : DeclarationReport ⊕ FailedDeclaration → Path :=
  Sum.elim DeclarationReport.path FailedDeclaration.path

theorem entryPath_entry (t : Turn) : entryPath (t.entry o) = t.path := by
  rw [Turn.entry]
  cases hresult : t.result o with
  | error failure => rfl
  | ok report =>
      obtain ⟨d, -, hreport, -⟩ := report_of_generateFile hresult
      rw [hreport]
      rfl

/--
**Failures are isolated, and a report drops nothing.**  Every declaration file has one entry, and the
declarations and the failures of the report are the entries of either kind, in the order of the
files.  A declaration is one that was opened when its turn came; it has as many units as its methods
call for, in the order of the methods and each use case before its holder.  And if a declaration file
is refused when its turn comes, the same run without it has the same other entries and leaves the same
tree.
-/
theorem generate_isolates_failures (o : GenerateOptions) (paths : List Path) (w : World) :
    let run := (generate o paths : Session GenerationReport) w
    ((entries o paths w).map entryPath = paths ∧
        run.1.declarations = (entries o paths w).filterMap Sum.getLeft? ∧
        run.1.failures = (entries o paths w).filterMap Sum.getRight?) ∧
      (∀ turn ∈ turns o paths w, ∀ report, turn.entry o = .inl report →
        ∃ d, openAt o turn.world turn.path = .ok d ∧
          report.methodCount = d.methods.length ∧
          report.units.length = report.methodCount * unitsPerMethod o.mode ∧
          report.units.map UnitOutcome.path = d.methods.flatMap fun method =>
            (unitTypes o.mode method).map fun type =>
              (o.outputFor turn.path).join (fileName type)) ∧
      ∀ i turn, (turns o paths w)[i]? = some turn → turn.IsRefused o →
        entries o (paths.eraseIdx i) w = (entries o paths w).eraseIdx i ∧
          ((generate o (paths.eraseIdx i) : Session GenerationReport) w).2.tree = run.2.tree := by
  intro run
  refine ⟨⟨?_, declarations_generate o paths w, failures_generate o paths w⟩, ?_, ?_⟩
  · rw [entries, List.map_map, show entryPath ∘ Turn.entry o = Turn.path from funext entryPath_entry,
      turns_path]
  · intro turn _ report hentry
    have hresult : turn.result o = .ok report := by
      rw [Turn.entry] at hentry
      cases hresult : turn.result o with
      | error failure =>
          rw [hresult] at hentry
          cases hentry
      | ok report =>
          rw [hresult] at hentry
          cases hentry
          rfl
    obtain ⟨d, hopen, hreport, hpaths⟩ := report_of_generateFile hresult
    have hcount : report.methodCount = d.methods.length := by rw [hreport]; rfl
    refine ⟨d, hopen, hcount, ?_, hpaths⟩
    rw [hcount, ← length_unitPaths, ← hpaths, List.length_map]
  · intro i turn hturn hrefused
    obtain ⟨hentries, hstill⟩ := runAll_eraseIdx hturn hrefused
    exact ⟨hentries, hstill.tree.symm⟩

/-! ### A run with failures -/

/-- Declaration files of which one is no text and one has no repository class, a use case that was
written by hand, and a directory in the place of another one. -/
def troubled : World :=
  worldOf
    [ ([], "a_repository.dart", .file "class ARepository\nFuture<void> get();\n".toUTF8),
      ([], "b_repository.dart", .file ⟨#[0xff]⟩),
      ([], "c_repository.dart", .file "Future<void> get();\n".toUTF8),
      ([], "d_repository.dart", .file "class DRepository\nFuture<int> put();\n".toUTF8),
      ([], "usecases", .directory),
      (["usecases"], "get_use_case.dart", .file "by hand".toUTF8),
      (["usecases"], "put_use_case.dart", .directory) ]

def troubledPaths : List Path :=
  ["a_repository.dart", "missing.dart", "b_repository.dart", "c_repository.dart", "d_repository.dart"]

/-- The repository class is looked up in each declaration file. -/
def lookingOptions : GenerateOptions :=
  ⟨.professional, "shop", none, "core/error/failures.dart", none, false, true⟩

/-- The declaration file that is no text, when its turn comes. -/
def unreadableTurn : Turn :=
  ⟨"b_repository.dart",
    (runAll lookingOptions ["missing.dart"] (runAll lookingOptions ["a_repository.dart"] troubled).2).2⟩

theorem troubled_failures_are_isolated :
    (turns lookingOptions troubledPaths troubled)[2]? = some unreadableTurn ∧
      unreadableTurn.IsRefused lookingOptions ∧
      entries lookingOptions (troubledPaths.eraseIdx 2) troubled =
        (entries lookingOptions troubledPaths troubled).eraseIdx 2 ∧
      ((generate lookingOptions (troubledPaths.eraseIdx 2) : Session GenerationReport)
          troubled).2.tree =
        ((generate lookingOptions troubledPaths : Session GenerationReport) troubled).2.tree := by
  have hturn : (turns lookingOptions troubledPaths troubled)[2]? = some unreadableTurn := by
    rw [troubledPaths, turns_cons, turns_cons, turns_cons, List.getElem?_cons_succ,
      List.getElem?_cons_succ, List.getElem?_cons_zero, unreadableTurn]
  have hrefused : unreadableTurn.IsRefused lookingOptions :=
    ⟨.read "b_repository.dart" .notText, by decide +kernel⟩
  exact ⟨hturn, hrefused,
    (generate_isolates_failures lookingOptions troubledPaths troubled).2.2 2 unreadableTurn hturn
      hrefused⟩

end UseCases.Project
