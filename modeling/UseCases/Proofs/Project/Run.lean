/-
What a run is asked for and what it accounts for.

Each method of each declaration file is a request for its use case, and a run is asked for the
files of all its requests.  A run has a part for each declaration file, in which it attempts to
write these files up to the first one that fails.  The report names the outcome of all attempts of
the parts without a failure, and of the other parts only the failure.
-/
import UseCases.Proofs.Project.Opening
import UseCases.Proofs.Project.Trail

namespace UseCases.Project

open Declaration Files Generation Report

/-! ### Requests -/

/-- The use case of a method that a declaration file declares. -/
structure Request where
  declaration : Path
  repository : String
  method : Method

/-- The files of a use case. -/
def Request.files (o : GenerateOptions) (r : Request) : List OutputFile :=
  o.filesFor r.declaration r.repository [r.method]

/-- The requests of a declaration file, as it stands in a world. -/
def requestsAt (o : GenerateOptions) (w : World) (path : Path) : List Request :=
  match ((readText path : Session (Except OsError String)) w).1 with
  | .error _ => []
  | .ok source =>
    match repositoryName o.repository source path with
    | .error _ => []
    | .ok repository => (extract source).methods.map (Request.mk path repository)

/-- A run over some declaration files. -/
def runAll (o : GenerateOptions) (paths : List Path) :
    Session (List DeclarationReport × List FailedDeclaration) :=
  generateAll o paths

/-- The requests of a run.  A declaration file stands as the run left it when it is read. -/
def requests (o : GenerateOptions) : List Path → World → List Request
  | [], _ => []
  | path :: paths, w => requestsAt o w path ++ requests o paths (runAll o [path] w).2

theorem filesFor_eq (o : GenerateOptions) (path : Path) (repository : String)
    (methods : List Method) :
    o.filesFor path repository methods =
      (methods.map (Request.mk path repository)).flatMap (Request.files o) := by
  rw [List.flatMap_map]
  simp only [Request.files, GenerateOptions.filesFor, List.flatMap_cons, List.flatMap_nil,
    List.append_nil]

section Opened

variable {o : GenerateOptions} {w : World} {path : Path}

theorem requestsAt_eq (o : GenerateOptions) (w : World) (path : Path) :
    requestsAt o w path =
      match openAt o w path with
      | .error _ => []
      | .ok d => d.methods.map (Request.mk path d.repository) := by
  rw [requestsAt, openAt]
  cases ((readText path : Session (Except OsError String)) w).1 with
  | error e => rfl
  | ok source =>
      simp only
      cases repositoryName o.repository source path <;> rfl

/-- What a declaration file asks for is known once it is opened. -/
theorem requestsAt_of_ok {d : Opened} (h : openAt o w path = .ok d) :
    requestsAt o w path = d.methods.map (Request.mk path d.repository) := by
  rw [requestsAt_eq, h]

theorem requestsAt_of_error {failure : Failure} (h : openAt o w path = .error failure) :
    requestsAt o w path = [] := by
  rw [requestsAt_eq, h]

/-- A request is made for a method of a declaration file that was opened. -/
theorem exists_of_mem_requestsAt {r : Request} (h : r ∈ requestsAt o w path) :
    ∃ d, openAt o w path = .ok d ∧ ∃ method ∈ d.methods, r = ⟨path, d.repository, method⟩ := by
  cases hopen : openAt o w path with
  | error failure =>
      rw [requestsAt_of_error hopen] at h
      cases h
  | ok d =>
      rw [requestsAt_of_ok hopen] at h
      obtain ⟨method, hmethod, rfl⟩ := List.mem_map.mp h
      exact ⟨d, rfl, method, hmethod, rfl⟩

end Opened

/-! ### Parts -/

/-- What a run does about one declaration file. -/
structure Part where
  path : Path
  requests : List Request
  tries : List Try
  result : Except Failure DeclarationReport

/-- What is told of some files that were attempted to write in turn: the outcomes of all of them,
or that they were attempted up to a failure. -/
def Tells (files : List OutputFile) (tries : List Try) : Except Failure (List UnitOutcome) → Prop
  | .ok units => tries.map Try.file = files ∧ tries.map Try.outcome? = units.map some
  | .error _ => tries.map Try.file <+: files

namespace Part

/-- The files that are asked for. -/
def files (o : GenerateOptions) (part : Part) : List OutputFile :=
  part.requests.flatMap (Request.files o)

/-- What the report of the run says about the declaration file, if it did not fail. -/
def report? (part : Part) : Option DeclarationReport :=
  part.result.toOption

/-- What the report of the run says about the declaration file, if it failed. -/
def failure? (part : Part) : Option FailedDeclaration :=
  match part.result with
  | .ok _ => none
  | .error failure => some ⟨part.path, failure.message⟩

/-- Between the two worlds a run does this part. -/
structure Ran (o : GenerateOptions) (part : Part) (w v : World) : Prop where
  generated : ((generateFile o part.path : Session (Except Failure DeclarationReport)) w).1 =
    part.result
  requests : part.requests = requestsAt o w part.path
  trail : Trail w part.tries v
  tells : Tells (part.files o) part.tries (part.result.map DeclarationReport.units)

end Part

/-- Between the two worlds a run does these parts. -/
inductive Course (o : GenerateOptions) : World → List Part → World → Prop
  | nil (w : World) : Course o w [] w
  | cons {w u v : World} {part : Part} {parts : List Part} (ran : part.Ran o w u)
      (rest : Course o u parts v) : Course o w (part :: parts) v

variable {w u v : World} {files : List OutputFile} {tries : List Try} {o : GenerateOptions}

theorem Tells.files_prefix {result : Except Failure (List UnitOutcome)}
    (h : Tells files tries result) : tries.map Try.file <+: files := by
  cases result with
  | ok units => exact h.1 ▸ List.prefix_refl _
  | error failure => exact h

theorem Tells.outcomes {units : List UnitOutcome} (h : Tells files tries (.ok units)) :
    tries.filterMap Try.outcome? = units := by
  have houtcomes := congrArg (List.filterMap id) h.2
  rw [List.filterMap_map, List.filterMap_map] at houtcomes
  exact houtcomes.trans List.filterMap_some

/-- Each attempt of a part is about a file that its declaration file asks for. -/
theorem Part.Ran.request_of_mem_tries {part : Part} (h : part.Ran o w v) {a : Try}
    (ha : a ∈ part.tries) : ∃ r ∈ requestsAt o w part.path, a.file ∈ r.files o := by
  have hfile := h.tells.files_prefix.subset (List.mem_map_of_mem ha)
  rw [Part.files, h.requests] at hfile
  exact List.mem_flatMap.mp hfile

/-! ### The parts of a run -/

theorem trail_of_produce {file : OutputFile} {result : Except Failure UnitOutcome}
    (h : (produce false file : Session (Except Failure UnitOutcome)) w = (result, v)) :
    ∃ a : Try, a.file = file ∧ Trail w [a] v ∧ a.outcome? = result.toOption := by
  obtain ⟨written, u, hwrite, h⟩ := session_bind_cases h
  refine ⟨⟨file, written⟩, rfl, ?_⟩
  have htrail : Trail w [⟨file, written⟩] u :=
    .cons (World.Still.refl w) hwrite (.nil (World.Still.refl u))
  cases written with
  | error failure =>
      cases h
      exact ⟨htrail, rfl⟩
  | ok done => cases done <;> cases h <;> exact ⟨htrail, rfl⟩

theorem trail_of_produceAll {result : Except Failure (List UnitOutcome)}
    (h : (produceAll false files : Session (Except Failure (List UnitOutcome))) w = (result, v)) :
    ∃ tries, Trail w tries v ∧ Tells files tries result := by
  induction files generalizing w v result with
  | nil =>
      cases h
      exact ⟨[], .nil (World.Still.refl _), rfl, rfl⟩
  | cons file files ih =>
      obtain ⟨first, u, hfirst, h⟩ := session_bind_cases h
      obtain ⟨a, hfile, htrail, houtcome⟩ := trail_of_produce hfirst
      cases first with
      | error failure =>
          cases h
          exact ⟨[a], htrail, files, by rw [List.map_singleton, hfile]; rfl⟩
      | ok outcome =>
          obtain ⟨others, x, hothers, h⟩ := session_bind_cases h
          obtain ⟨tries, hrest, htells⟩ := ih hothers
          refine ⟨a :: tries, ?_⟩
          cases others with
          | error failure =>
              cases h
              refine ⟨htrail.append hrest, ?_⟩
              rw [Tells, List.map_cons, hfile, List.cons_prefix_cons]
              exact ⟨rfl, htells⟩
          | ok outcomes =>
              cases h
              refine ⟨htrail.append hrest, ?_, ?_⟩
              · rw [List.map_cons, hfile, htells.1]
              · rw [List.map_cons, List.map_cons, htells.2, houtcome]
                rfl

theorem trail_of_generateFile {path : Path} {result : Except Failure DeclarationReport}
    (hreal : o.dryRun = false)
    (h : (generateFile o path : Session (Except Failure DeclarationReport)) w = (result, v)) :
    ∃ tries, Trail w tries v ∧ Tells ((requestsAt o w path).flatMap (Request.files o)) tries
      (result.map DeclarationReport.units) := by
  cases hopen : openAt o w path with
  | error failure =>
      obtain ⟨u, hstill, hfile⟩ := generateFile_of_error hopen
      rw [hfile] at h
      cases h
      rw [requestsAt_of_error hopen]
      exact ⟨[], .nil hstill, List.nil_prefix⟩
  | ok d =>
      obtain ⟨u, hstill, hfile⟩ := generateFile_of_ok hopen
      rw [hfile, hreal] at h
      cases hproduced : (produceAll false (d.files o path) :
          Session (Except Failure (List UnitOutcome))) u with
      | mk produced x =>
          rw [hproduced] at h
          cases h
          obtain ⟨tries, htrail, htells⟩ := trail_of_produceAll hproduced
          rw [requestsAt_of_ok hopen, ← filesFor_eq]
          refine ⟨tries, htrail.after hstill, ?_⟩
          cases produced <;> exact htells

section Cons

variable {path : Path} {report : DeclarationReport} {failure : Failure}

theorem runAll_of_ok (paths : List Path)
    (h : (generateFile o path : Session (Except Failure DeclarationReport)) w = (.ok report, u)) :
    runAll o (path :: paths) w =
      ((report :: (runAll o paths u).1.1, (runAll o paths u).1.2), (runAll o paths u).2) := by
  rw [runAll, generateAll, session_bind, h]
  rfl

/-- What a failure leaves in the log. -/
def skipRecord (path : Path) (failure : Failure) : LogRecord :=
  ⟨.warn, "skipping " ++ path ++ ": " ++ failure.message⟩

theorem runAll_of_error (paths : List Path)
    (h : (generateFile o path : Session (Except Failure DeclarationReport)) w =
      (.error failure, u)) :
    runAll o (path :: paths) w =
      let rest := runAll o paths (u.addLog (skipRecord path failure))
      ((rest.1.1, ⟨path, failure.message⟩ :: rest.1.2), rest.2) := by
  rw [runAll, generateAll, session_bind, h]
  rfl

end Cons

/-- **A run does one part after the other**, and its report tells of each of them. -/
theorem course_of_runAll (hreal : o.dryRun = false) (paths : List Path) (w : World) :
    ∃ parts, Course o w parts (runAll o paths w).2 ∧
      parts.map Part.path = paths ∧
      parts.flatMap Part.requests = requests o paths w ∧
      (runAll o paths w).1 = (parts.filterMap Part.report?, parts.filterMap Part.failure?) := by
  induction paths generalizing w with
  | nil => exact ⟨[], .nil w, rfl, rfl, rfl⟩
  | cons path paths ih =>
      cases hfile : (generateFile o path : Session (Except Failure DeclarationReport)) w with
      | mk result u =>
          obtain ⟨tries, htrail, htells⟩ := trail_of_generateFile hreal hfile
          cases result with
          | ok report =>
              obtain ⟨parts, hcourse, hpaths, hrequests, hresult⟩ := ih u
              rw [requests, runAll_of_ok paths hfile, runAll_of_ok [] hfile]
              refine ⟨⟨path, requestsAt o w path, tries, .ok report⟩ :: parts,
                .cons ⟨congrArg Prod.fst hfile, rfl, htrail, htells⟩ hcourse, ?_, ?_, ?_⟩
              · rw [List.map_cons, hpaths]
              · rw [List.flatMap_cons, hrequests]
                rfl
              · rw [hresult]
                rfl
          | error failure =>
              have hlogged : u.Still (u.addLog (skipRecord path failure)) := ⟨rfl, rfl⟩
              obtain ⟨parts, hcourse, hpaths, hrequests, hresult⟩ :=
                ih (u.addLog (skipRecord path failure))
              rw [requests, runAll_of_error paths hfile, runAll_of_error [] hfile]
              refine ⟨⟨path, requestsAt o w path, tries, .error failure⟩ :: parts,
                .cons ⟨congrArg Prod.fst hfile, rfl, ?_, htells⟩ hcourse, ?_, ?_, ?_⟩
              · have hrest : Trail u [] (u.addLog (skipRecord path failure)) := .nil hlogged
                have hwhole := htrail.append hrest
                rw [List.append_nil] at hwhole
                exact hwhole
              · rw [List.map_cons, hpaths]
              · rw [List.flatMap_cons, hrequests]
                rfl
              · simp only [hresult]
                rfl

namespace Course

variable {parts : List Part}

theorem trail (h : Course o w parts v) : Trail w (parts.flatMap Part.tries) v := by
  induction h with
  | nil w => exact .nil (World.Still.refl w)
  | cons ran rest ih => exact ran.trail.append ih

/-- The attempts are about files that are asked for, in their order. -/
theorem files_sublist (h : Course o w parts v) :
    ((parts.flatMap Part.tries).map Try.file).Sublist
      ((parts.flatMap Part.requests).flatMap (Request.files o)) := by
  induction h with
  | nil w => exact List.Sublist.refl _
  | cons ran rest ih =>
      rw [List.flatMap_cons, List.flatMap_cons, List.map_append, List.flatMap_append]
      exact ran.tells.files_prefix.sublist.append ih

/-- The report tells of attempts, in their order. -/
theorem units_sublist (h : Course o w parts v) :
    ((parts.filterMap Part.report?).flatMap DeclarationReport.units).Sublist
      ((parts.flatMap Part.tries).filterMap Try.outcome?) := by
  induction h with
  | nil w => exact List.Sublist.refl _
  | @cons w u v part parts ran rest ih =>
      rw [List.flatMap_cons, List.filterMap_append]
      cases hresult : part.result with
      | error failure =>
          rw [List.filterMap_cons_none (by rw [Part.report?, hresult]; rfl)]
          exact ih.trans (List.sublist_append_right _ _)
      | ok report =>
          have htells := ran.tells
          rw [hresult] at htells
          rw [List.filterMap_cons_some (b := report) (by rw [Part.report?, hresult]; rfl),
            List.flatMap_cons, htells.outcomes]
          exact ih.append_left _

end Course

/-! ### Dry runs -/

theorem onlyLogs_generateFile (hdry : o.dryRun = true) (path : Path) :
    OnlyLogs (generateFile o path : Session (Except Failure DeclarationReport)) := by
  refine holds_generateFile composes_onlyLogs (onlyLogs_read path) onlyLogs_log fun file => ?_
  rw [hdry]
  exact onlyLogs_pure _

/-- **A dry run leaves the tree as it is.** -/
theorem onlyLogs_runAll (hdry : o.dryRun = true) (paths : List Path) :
    OnlyLogs (runAll o paths) :=
  holds_generateAll composes_onlyLogs onlyLogs_log fun path _ => onlyLogs_generateFile hdry path

/-! ### Accounts -/

/-- Between the two worlds some of the `files` were written or skipped, one after the other, and the
`units` tell of some of these deeds. -/
def Accounts (files : List OutputFile) (units : List UnitOutcome) (w v : World) : Prop :=
  ∃ deeds, Deeds w deeds v ∧ (deeds.map Deed.file).Sublist files ∧
    units.Sublist (deeds.map Deed.outcome)

/-- **A run accounts for the units in its report.** -/
theorem accounts_of_runAll (hreal : o.dryRun = false) (paths : List Path) :
    Accounts ((requests o paths w).flatMap (Request.files o))
      ((runAll o paths w).1.1.flatMap DeclarationReport.units) w (runAll o paths w).2 := by
  obtain ⟨parts, hcourse, -, hrequests, hresult⟩ := course_of_runAll hreal paths w
  rw [← hrequests, hresult]
  refine ⟨_, hcourse.trail.deeds, ?_, ?_⟩
  · exact (deeds_files_sublist _).trans hcourse.files_sublist
  · rw [outcomes_of_deeds]
    exact hcourse.units_sublist

end UseCases.Project
