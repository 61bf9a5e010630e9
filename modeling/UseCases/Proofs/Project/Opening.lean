/-
Opening a declaration file.

A declaration file is read, and its repository class is settled, before anything is done about its
use cases.  What is opened decides all that is reported, up to what becomes of the files.  A
declaration file that cannot be opened fails, and changes nothing but the log.
-/
import UseCases.Project.Generate
import UseCases.Proofs.Files.Session

namespace UseCases.Project

open Declaration Files Generation Report

variable {o : GenerateOptions} {w : World} {path : Path}

/-! ### Properties of generating -/

section Composes

variable {holds : ∀ {α : Type}, Session α → Prop} (h : Composes holds)
include h

theorem holds_logAll (hlog : ∀ record, holds (Host.log record)) (records : List LogRecord) :
    holds (logAll records) := by
  induction records with
  | nil => exact h.pure _
  | cons record records ih => exact h.bind (hlog record) fun _ => ih

theorem holds_produceAll {dryRun : Bool} {files : List OutputFile}
    (hproduce : ∀ file ∈ files, holds (produce dryRun file)) : holds (produceAll dryRun files) := by
  induction files with
  | nil => exact h.pure _
  | cons file files ih =>
      rw [List.forall_mem_cons] at hproduce
      refine h.bind hproduce.1 fun first => ?_
      split
      · exact h.pure _
      · refine h.bind (ih hproduce.2) fun others => ?_
        split <;> exact h.pure _

theorem holds_generateFile (hread : holds (Host.read path))
    (hlog : ∀ record, holds (Host.log record))
    (hproduce : ∀ file, holds (produce o.dryRun file)) : holds (generateFile o path) := by
  refine h.bind (holds_readText h hread) fun source? => ?_
  split
  · exact h.pure _
  · split
    · exact h.pure _
    · refine h.bind (holds_logAll h hlog _) fun _ => ?_
      refine h.bind (holds_produceAll h fun file _ => hproduce file) fun produced => ?_
      split <;> exact h.pure _

theorem holds_generateAll {paths : List Path} (hlog : ∀ record, holds (Host.log record))
    (hfile : ∀ path ∈ paths, holds (generateFile o path)) : holds (generateAll o paths) := by
  induction paths with
  | nil => exact h.pure _
  | cons path paths ih =>
      rw [List.forall_mem_cons] at hfile
      refine h.bind hfile.1 fun result => ?_
      split
      · exact h.bind (ih hfile.2) fun _ => h.pure _
      · exact h.bind (hlog _) fun _ => h.bind (ih hfile.2) fun _ => h.pure _

end Composes

/-! ### Opened declaration files -/

theorem onlyLogs_logAll (records : List LogRecord) : OnlyLogs (logAll records) :=
  holds_logAll composes_onlyLogs onlyLogs_log records

/-- What is reported of a declaration file with these units. -/
def reportOf (path : Path) (source repository : String) (units : List UnitOutcome) :
    DeclarationReport where
  path := path
  repository := repository
  methodCount := (extract source).methods.length
  warnings := (extract source).warnings.map (describe path)
  units := units

theorem generateFrom_eq (o : GenerateOptions) (path : Path) (source repository : String) (w : World) :
    ∃ u, w.Still u ∧
      (generateFrom o path source repository : Session (Except Failure DeclarationReport)) w =
        let produced :=
          (produceAll o.dryRun (o.filesFor path repository (extract source).methods) :
            Session (Except Failure (List UnitOutcome))) u
        (produced.1.map (reportOf path source repository), produced.2) := by
  refine ⟨((logAll (extract source).log : Session Unit) w).2, onlyLogs_logAll _ w, ?_⟩
  rw [generateFrom, session_bind]
  simp only
  rw [session_bind]
  obtain ⟨produced, x⟩ := (produceAll o.dryRun (o.filesFor path repository (extract source).methods) :
    Session (Except Failure (List UnitOutcome))) ((logAll (extract source).log : Session Unit) w).2
  cases produced <;> rfl

/-- A declaration file that was read, and the class that its use cases wrap. -/
structure Opened where
  source : String
  repository : String
deriving DecidableEq

/-- What a declaration file is when it is opened, or why it cannot be. -/
def openAt (o : GenerateOptions) (w : World) (path : Path) : Except Failure Opened :=
  match ((readText path : Session (Except OsError String)) w).1 with
  | .error e => .error (.read path e)
  | .ok source => (repositoryName o.repository source path).map (Opened.mk source)

namespace Opened

/-- The methods that the declaration file declares. -/
def methods (d : Opened) : List Method :=
  (extract d.source).methods

/-- The files of the use cases. -/
def files (o : GenerateOptions) (path : Path) (d : Opened) : List OutputFile :=
  o.filesFor path d.repository d.methods

/-- What is reported of the declaration file with these units. -/
def report (path : Path) (d : Opened) (units : List UnitOutcome) : DeclarationReport :=
  reportOf path d.source d.repository units

end Opened

section

variable {d : Opened} {failure : Failure}

/-- A declaration file is opened if it can be read and has a repository class. -/
theorem openAt_eq_ok_iff :
    openAt o w path = .ok d ↔
      ((readText path : Session (Except OsError String)) w).1 = .ok d.source ∧
        repositoryName o.repository d.source path = .ok d.repository := by
  obtain ⟨source, repository⟩ := d
  unfold openAt
  cases ((readText path : Session (Except OsError String)) w).1 with
  | error e => simp
  | ok text =>
      simp only [Except.ok.injEq]
      constructor
      · intro h
        cases hrepository : repositoryName o.repository text path with
        | error failure =>
            rw [hrepository] at h
            cases h
        | ok name =>
            rw [hrepository] at h
            cases h
            exact ⟨rfl, hrepository⟩
      · rintro ⟨rfl, hrepository⟩
        rw [hrepository]
        rfl

/-- A declaration file is opened first, and what is opened is all that the rest goes on with. -/
theorem generateFile_eq (o : GenerateOptions) (path : Path) (w : World) :
    (generateFile o path : Session (Except Failure DeclarationReport)) w =
      let after := ((readText path : Session (Except OsError String)) w).2
      match openAt o w path with
      | .error failure => (.error failure, after)
      | .ok d => (generateFrom o path d.source d.repository :
          Session (Except Failure DeclarationReport)) after := by
  rw [generateFile, session_bind, openAt]
  cases ((readText path : Session (Except OsError String)) w).1 with
  | error e => rfl
  | ok source =>
      simp only
      cases repositoryName o.repository source path <;> rfl

/-- **A declaration file that cannot be opened fails, and changes nothing but the log.** -/
theorem generateFile_of_error (h : openAt o w path = .error failure) :
    ∃ u, w.Still u ∧
      (generateFile o path : Session (Except Failure DeclarationReport)) w =
        (.error failure, u) := by
  refine ⟨_, onlyLogs_readText path w, ?_⟩
  rw [generateFile_eq, h]

/-- A declaration file that is opened is reported with what becomes of its files. -/
theorem generateFile_of_ok (h : openAt o w path = .ok d) :
    ∃ u, w.Still u ∧
      (generateFile o path : Session (Except Failure DeclarationReport)) w =
        let produced := (produceAll o.dryRun (d.files o path) :
          Session (Except Failure (List UnitOutcome))) u
        (produced.1.map (d.report path), produced.2) := by
  obtain ⟨u, hstill, hfrom⟩ := generateFrom_eq o path d.source d.repository
    ((readText path : Session (Except OsError String)) w).2
  refine ⟨u, (onlyLogs_readText path w).trans hstill, ?_⟩
  rw [generateFile_eq, h]
  exact hfrom

/-- **A report is that of a declaration file that was opened**, with all that became of its
files. -/
theorem opened_of_generateFile {report : DeclarationReport}
    (h : ((generateFile o path : Session (Except Failure DeclarationReport)) w).1 = .ok report) :
    ∃ d u, openAt o w path = .ok d ∧ w.Still u ∧
      ((produceAll o.dryRun (d.files o path) : Session (Except Failure (List UnitOutcome))) u).1 =
        .ok report.units ∧
      report = d.report path report.units := by
  cases hopen : openAt o w path with
  | error failure =>
      obtain ⟨u, -, hfile⟩ := generateFile_of_error hopen
      rw [hfile] at h
      cases h
  | ok d =>
      obtain ⟨u, hstill, hfile⟩ := generateFile_of_ok hopen
      rw [hfile] at h
      simp only at h
      cases hproduced : ((produceAll o.dryRun (d.files o path) :
          Session (Except Failure (List UnitOutcome))) u).1 with
      | error failure =>
          rw [hproduced] at h
          cases h
      | ok units =>
          rw [hproduced] at h
          cases h
          exact ⟨d, u, rfl, hstill, hproduced, rfl⟩

end

end UseCases.Project
