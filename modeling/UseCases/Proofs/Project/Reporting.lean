/-
What a report says of the files that changed.

A file changes only by an attempt to write it.  The report names the attempts for each declaration
file, unless one of them failed: then it names the failure only, and with it the report passes over
the files that were written before.  They are among the files that the declaration asks for.
-/
import UseCases.Proofs.Project.Request

namespace UseCases.Project

open Files Report

variable {o : GenerateOptions} {w v : World} {a : Try} {location : Location}

theorem Course.ran {part : Part} {parts : List Part} (h : Course o w parts v) (hpart : part ∈ parts) :
    ∃ u x, part.Ran o u x := by
  induction h with
  | nil w => cases hpart
  | @cons w u v first parts ran rest ih =>
      rcases List.mem_cons.mp hpart with rfl | hpart
      · exact ⟨w, u, ran⟩
      · exact ih hpart

/-- An attempt that wrote its file is told of as a written unit. -/
theorem Try.WroteAt.outcome? (h : a.WroteAt w location) :
    a.outcome? = some ⟨a.file.path, .written⟩ := by
  obtain ⟨file, result⟩ := a
  obtain rfl : result = .ok .written := h.1
  rfl

/-- If a declaration file did not fail, its report names every file that was written for it. -/
theorem Part.Ran.mem_units {part : Part} {u x : World} (h : part.Ran o u x)
    {report : DeclarationReport} (hresult : part.result = .ok report) (ha : a ∈ part.tries)
    (hwrote : a.WroteAt w location) : ⟨a.file.path, .written⟩ ∈ report.units := by
  have htells := h.tells
  rw [hresult] at htells
  have houtcome := List.mem_map_of_mem (f := Try.outcome?) ha
  rw [htells.2, hwrote.outcome?] at houtcome
  obtain ⟨unit, hunit, heq⟩ := List.mem_map.mp houtcome
  rw [← Option.some.inj heq]
  exact hunit

/-- **Every file that a run changed is in its report**, as a written unit whose path leads to it, or
the report names the failure of a declaration that the file was written for. -/
theorem generate_reports_changes (o : GenerateOptions) (paths : List Path) (w : World)
    (hreal : o.dryRun = false) :
    let run := (generate o paths : Session GenerationReport) w
    ∀ location content, run.2.tree.find? location = some (.file content) →
      w.tree.find? location ≠ some (.file content) →
        (∃ unit ∈ run.1.units, unit.status = .written ∧ run.2.target unit.path = .found location) ∨
          ∃ failure ∈ run.1.failures, ∃ r ∈ requests o paths w, r.declaration = failure.path ∧
            ∃ file ∈ r.files o, file.LeadsTo run.2 location := by
  intro run location content hfile hchanged
  obtain ⟨parts, hcourse, -, hrequests, hresult⟩ := course_of_runAll hreal paths w
  have hreports : run.1.declarations = parts.filterMap Part.report? := congrArg Prod.fst hresult
  have hfailures : run.1.failures = parts.filterMap Part.failure? := congrArg Prod.snd hresult
  have hwrote : ∃ a ∈ parts.flatMap Part.tries, a.WroteAt run.2 location := by
    by_contra hnone
    exact hchanged ((hcourse.trail.changes.files location hnone content).mp hfile)
  obtain ⟨a, ha, hwrote⟩ := hwrote
  obtain ⟨part, hpart, ha⟩ := List.mem_flatMap.mp ha
  obtain ⟨u, x, hran⟩ := hcourse.ran hpart
  cases hpartResult : part.result with
  | ok report =>
      left
      refine ⟨⟨a.file.path, .written⟩, ?_, rfl, hwrote.2⟩
      rw [GenerationReport.units, hreports]
      refine List.mem_flatMap.mpr ⟨report, List.mem_filterMap.mpr ⟨part, hpart, ?_⟩,
        hran.mem_units hpartResult ha hwrote⟩
      rw [Part.report?, hpartResult]
      rfl
  | error failure =>
      right
      refine ⟨⟨part.path, failure.message⟩, ?_, ?_⟩
      · rw [hfailures]
        refine List.mem_filterMap.mpr ⟨part, hpart, ?_⟩
        rw [Part.failure?, hpartResult]
      · obtain ⟨r, hr, hasked⟩ := hran.request_of_mem_tries ha
        refine ⟨r, ?_, declaration_of_mem_requestsAt hr, a.file, hasked, hwrote.2⟩
        rw [← hrequests]
        exact List.mem_flatMap.mpr ⟨part, hpart, by rw [hran.requests]; exact hr⟩

/-! ### A failure after a file was written -/

/-- A declaration file, and a directory where the second of its use cases goes. -/
def obstructed : World :=
  worldOf
    [ ([], "a_repository.dart", .file "Future<void> get();\nFuture<void> put();\n".toUTF8),
      ([], "b_repository.dart", .file "Future<void> sort();\n".toUTF8), ([], "usecases", .directory),
      (["usecases"], "put_use_case.dart", .directory) ]

def obstructedPaths : List Path := ["a_repository.dart", "b_repository.dart"]

/-- Files that exist are replaced. -/
def replacingOptions : GenerateOptions :=
  ⟨.simple, "shop", some "Cart", "core/error/failures.dart", none, false, true⟩

theorem generate_obstructed_reports_changes :
    replacingOptions.dryRun = false ∧
      let run := (generate replacingOptions obstructedPaths : Session GenerationReport) obstructed
      ∀ location content, run.2.tree.find? location = some (.file content) →
        obstructed.tree.find? location ≠ some (.file content) →
          (∃ unit ∈ run.1.units,
            unit.status = .written ∧ run.2.target unit.path = .found location) ∨
            ∃ failure ∈ run.1.failures, ∃ r ∈ requests replacingOptions obstructedPaths obstructed,
              r.declaration = failure.path ∧
                ∃ file ∈ r.files replacingOptions, file.LeadsTo run.2 location :=
  ⟨rfl, generate_reports_changes replacingOptions obstructedPaths obstructed rfl⟩

/-- The first use case is written, the second one fails, and the report has no unit for either. -/
theorem failed_declaration_hides_written_file :
    replacingOptions.dryRun = false ∧
      let run := (generate replacingOptions obstructedPaths : Session GenerationReport) obstructed
      obstructed.kind? "usecases/get_use_case.dart" = none ∧
        run.2.kind? "usecases/get_use_case.dart" = some .file ∧
        ∀ unit ∈ run.1.units, unit.path ≠ "usecases/get_use_case.dart" := by
  decide +kernel

end UseCases.Project
