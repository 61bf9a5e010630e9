/-
The turns of a run.

A run takes its declaration files one by one, and each of them has a turn in the world that the turns
before left.  A turn opens the declaration file, and if it cannot be opened, the turn changes nothing
but the log.  Nothing that a run does depends on the log, so such a turn may as well not have been.
-/
import UseCases.Proofs.Project.Run

namespace UseCases.Project

open Declaration Files Generation Report

variable {o : GenerateOptions} {w u v : World} {path : Path}

/-! ### Nothing depends on the log -/

theorem logBlind_outputFile_write (f : OutputFile) : LogBlind f.write := by
  have hprepare : LogBlind f.prepare :=
    OutputFile.holds_prepare composes_logBlind fun parent _ => logBlind_makeDirectories parent
  have hstore : LogBlind f.store :=
    OutputFile.holds_store composes_logBlind hprepare (logBlind_write _ _)
  exact OutputFile.holds_write composes_logBlind (logBlind_kind? _) logBlind_log hstore

theorem logBlind_produce (dryRun : Bool) (file : OutputFile) : LogBlind (produce dryRun file) := by
  unfold produce
  split
  · exact logBlind_pure _
  · refine (logBlind_outputFile_write file).bind fun written => ?_
    split <;> exact logBlind_pure _

theorem logBlind_generateFile (o : GenerateOptions) (path : Path) : LogBlind (generateFile o path) :=
  holds_generateFile composes_logBlind (logBlind_read path) logBlind_log (logBlind_produce o.dryRun)

/-- **A run does not depend on the log.** -/
theorem logBlind_runAll (o : GenerateOptions) (paths : List Path) : LogBlind (runAll o paths) :=
  holds_generateAll composes_logBlind logBlind_log fun path _ => logBlind_generateFile o path

/-! ### Turns -/

/-- A declaration file whose turn it is, and the world that it finds. -/
structure Turn where
  path : Path
  world : World

namespace Turn

/-- What the turn comes to. -/
def result (o : GenerateOptions) (t : Turn) : Except Failure DeclarationReport :=
  ((generateFile o t.path : Session (Except Failure DeclarationReport)) t.world).1

/-- What the report of the run says about the declaration file. -/
def entry (o : GenerateOptions) (t : Turn) : DeclarationReport ⊕ FailedDeclaration :=
  match t.result o with
  | .ok report => .inl report
  | .error failure => .inr ⟨t.path, failure.message⟩

end Turn

/-- The turns of a run. -/
def turns (o : GenerateOptions) : List Path → World → List Turn
  | [], _ => []
  | path :: paths, w => ⟨path, w⟩ :: turns o paths (runAll o [path] w).2

theorem turns_cons (path : Path) (paths : List Path) (w : World) :
    turns o (path :: paths) w = ⟨path, w⟩ :: turns o paths (runAll o [path] w).2 := rfl

theorem turns_singleton (o : GenerateOptions) (path : Path) (w : World) :
    turns o [path] w = [⟨path, w⟩] := rfl

theorem turns_path (o : GenerateOptions) (paths : List Path) (w : World) :
    (turns o paths w).map Turn.path = paths := by
  induction paths generalizing w with
  | nil => rfl
  | cons path paths ih => rw [turns_cons, List.map_cons, ih]

/-- What a run makes of one declaration file. -/
theorem runAll_singleton (o : GenerateOptions) (path : Path) (w : World) :
    ((generateFile o path : Session (Except Failure DeclarationReport)) w).2.Still
        (runAll o [path] w).2 ∧
      (runAll o [path] w).1 = ((Turn.entry o ⟨path, w⟩).getLeft?.toList,
        (Turn.entry o ⟨path, w⟩).getRight?.toList) := by
  rw [Turn.entry, Turn.result]
  cases hfile : (generateFile o path : Session (Except Failure DeclarationReport)) w with
  | mk result u =>
      cases result with
      | ok report =>
          rw [runAll_of_ok [] hfile]
          exact ⟨World.Still.refl u, rfl⟩
      | error failure =>
          rw [runAll_of_error [] hfile]
          exact ⟨⟨rfl, rfl⟩, rfl⟩

/-- The entry of a declaration file that is opened tells what becomes of its files, and they are all
that the turn changes. -/
theorem entry_of_openAt {d : Opened} (h : openAt o w path = .ok d) : ∃ u result x,
    w.Still u ∧ (produceAll o.dryRun (d.files o path) :
        Session (Except Failure (List UnitOutcome))) u = (result, x) ∧
      x.Still (runAll o [path] w).2 ∧
      Turn.entry o ⟨path, w⟩ =
        match result with
        | .ok units => .inl (d.report path units)
        | .error failure => .inr ⟨path, failure.message⟩ := by
  obtain ⟨u, hstill, hfile⟩ := generateFile_of_ok h
  have hsingle := (runAll_singleton o path w).1
  rw [hfile] at hsingle
  refine ⟨u, _, _, hstill, rfl, hsingle, ?_⟩
  rw [Turn.entry, Turn.result, hfile]
  simp only
  cases (produceAll o.dryRun (d.files o path) :
    Session (Except Failure (List UnitOutcome))) u |>.1 <;> rfl

theorem entry_of_openAt_error {failure : Failure} (h : openAt o w path = .error failure) :
    Turn.entry o ⟨path, w⟩ = .inr ⟨path, failure.message⟩ := by
  obtain ⟨u, -, hfile⟩ := generateFile_of_error h
  rw [Turn.entry, Turn.result, hfile]

/-- The declaration file of the turn cannot be read, or has no repository class. -/
def Turn.IsRefused (o : GenerateOptions) (t : Turn) : Prop :=
  ∃ failure, openAt o t.world t.path = .error failure

instance (o : GenerateOptions) (t : Turn) : Decidable (t.IsRefused o) :=
  match h : openAt o t.world t.path with
  | .error failure => isTrue ⟨failure, h⟩
  | .ok _ => isFalse fun ⟨_, hrefused⟩ => by cases h.symm.trans hrefused

/-- After a turn that is refused the world is as it was, but for the log. -/
theorem still_of_isRefused (h : Turn.IsRefused o ⟨path, w⟩) : w.Still (runAll o [path] w).2 := by
  obtain ⟨failure, hopen⟩ := h
  obtain ⟨u, hstill, hfile⟩ := generateFile_of_error hopen
  have hsingle := (runAll_singleton o path w).1
  rw [hfile] at hsingle
  exact hstill.trans hsingle

/-- A run goes on with what its first turn left. -/
theorem runAll_cons (o : GenerateOptions) (path : Path) (paths : List Path) (w : World) :
    runAll o (path :: paths) w =
      let first := runAll o [path] w
      let rest := runAll o paths first.2
      ((first.1.1 ++ rest.1.1, first.1.2 ++ rest.1.2), rest.2) := by
  cases hfile : (generateFile o path : Session (Except Failure DeclarationReport)) w with
  | mk result u =>
      cases result with
      | ok report =>
          rw [runAll_of_ok paths hfile, runAll_of_ok [] hfile]
          rfl
      | error failure =>
          rw [runAll_of_error paths hfile, runAll_of_error [] hfile]
          rfl

theorem runAll_append (o : GenerateOptions) (paths more : List Path) (w : World) :
    (runAll o (paths ++ more) w).2 = (runAll o more (runAll o paths w).2).2 := by
  induction paths generalizing w with
  | nil => rfl
  | cons path paths ih =>
      rw [List.cons_append, runAll_cons, runAll_cons o path paths]
      exact ih _

theorem turns_append (o : GenerateOptions) (paths more : List Path) (w : World) :
    turns o (paths ++ more) w = turns o paths w ++ turns o more (runAll o paths w).2 := by
  induction paths generalizing w with
  | nil => rfl
  | cons path paths ih =>
      rw [List.cons_append, turns_cons, turns_cons, ih, runAll_cons o path paths, List.cons_append]

/-- What the report of a run says about each declaration file. -/
def entries (o : GenerateOptions) (paths : List Path) (w : World) :
    List (DeclarationReport ⊕ FailedDeclaration) :=
  (turns o paths w).map (Turn.entry o)

theorem entries_cons (path : Path) (paths : List Path) (w : World) :
    entries o (path :: paths) w =
      Turn.entry o ⟨path, w⟩ :: entries o paths (runAll o [path] w).2 := rfl

/-- **The report has one entry for each turn**, among the declarations or among the failures. -/
theorem runAll_entries (o : GenerateOptions) (paths : List Path) (w : World) :
    (runAll o paths w).1 =
      ((entries o paths w).filterMap Sum.getLeft?, (entries o paths w).filterMap Sum.getRight?) := by
  induction paths generalizing w with
  | nil => rfl
  | cons path paths ih =>
      rw [runAll_cons, entries_cons]
      simp only
      rw [ih, (runAll_singleton o path w).2]
      cases Turn.entry o ⟨path, w⟩ <;> rfl

theorem world_generate (o : GenerateOptions) (paths : List Path) (w : World) :
    ((generate o paths : Session GenerationReport) w).2 = (runAll o paths w).2 := rfl

theorem declarations_generate (o : GenerateOptions) (paths : List Path) (w : World) :
    ((generate o paths : Session GenerationReport) w).1.declarations =
      (entries o paths w).filterMap Sum.getLeft? :=
  congrArg Prod.fst (runAll_entries o paths w)

theorem failures_generate (o : GenerateOptions) (paths : List Path) (w : World) :
    ((generate o paths : Session GenerationReport) w).1.failures =
      (entries o paths w).filterMap Sum.getRight? :=
  congrArg Prod.snd (runAll_entries o paths w)

theorem getRight?_entry_eq_none (o : GenerateOptions) (t : Turn) :
    (t.entry o).getRight? = none ↔ ¬ ∃ failure, t.result o = .error failure := by
  rw [Turn.entry]
  cases t.result o <;> simp

/-- **A run is reported to have failures exactly if one of its turns failed.** -/
theorem hasFailures_generate (o : GenerateOptions) (paths : List Path) (w : World) :
    ((generate o paths : Session GenerationReport) w).1.hasFailures = true ↔
      ∃ t ∈ turns o paths w, ∃ failure, t.result o = .error failure := by
  rw [GenerationReport.hasFailures, failures_generate, Bool.not_eq_true', ← Bool.not_eq_true,
    List.isEmpty_iff, List.filterMap_eq_nil_iff, entries]
  simp only [List.forall_mem_map, getRight?_entry_eq_none, not_forall, not_not, exists_prop]

/-- In worlds that differ in their logs the turns come to the same. -/
theorem entries_still (h : w.Still v) (paths : List Path) : entries o paths v = entries o paths w := by
  induction paths generalizing w v with
  | nil => rfl
  | cons path paths ih =>
      have hresult : Turn.result o ⟨path, v⟩ = Turn.result o ⟨path, w⟩ :=
        (logBlind_generateFile o path w v h).1
      rw [entries_cons, entries_cons, Turn.entry, Turn.entry, hresult,
        ih (logBlind_runAll o [path] w v h).2]

end UseCases.Project
