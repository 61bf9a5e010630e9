/-
Runs that are repeated.

After a run without failures every file that it was asked for is there, be it that the run wrote it
or that it was there before.  The same run then reads the same methods in the same declaration files
and leaves each file alone.

Whether the declaration files are the same is another matter, as the new files are in the way of a
walk.  A use case is not named like a declaration file; but where a link stands in its place, the
file is made where the link leads, and has the name that the link gives it.
-/
import UseCases.Proofs.Project.Discovery
import UseCases.Proofs.Project.Preservation
import UseCases.Proofs.Project.Turns

/-! ### Reports of repeated runs -/

namespace UseCases.Report

/-- The generated file is left alone. -/
def UnitOutcome.asSkipped (u : UnitOutcome) : UnitOutcome :=
  ⟨u.path, .skipped⟩

/-- The report with all generated files left alone. -/
def DeclarationReport.asSkipped (d : DeclarationReport) : DeclarationReport :=
  { d with units := d.units.map UnitOutcome.asSkipped }

/-- The report with all generated files left alone. -/
def GenerationReport.asSkipped (r : GenerationReport) : GenerationReport :=
  { r with declarations := r.declarations.map DeclarationReport.asSkipped }

end UseCases.Report

namespace UseCases.Project

open Dart Declaration Files Generation Report

variable {o : GenerateOptions} {w u v x : World} {path : Path} {files : List OutputFile}
  {tries : List Try}

/-! ### New files -/

/-- No link in the place of a requested file leads to a missing file that would be collected as a
declaration file. -/
def Request.AvoidsDeclarations (o : GenerateOptions) (w : World) (args : List Path) (r : Request) :
    Prop :=
  ∀ folder ∈ r.folder o w, ∀ unit ∈ r.units o, ¬w.tree.IsUnlinked (folder ++ [unit.fileName]) →
    ∀ place ∈ destination w.tree w.cwd (r.file o unit).path,
      w.tree.find? place = none → isCollected w args place = false

instance (o : GenerateOptions) (w : World) (args : List Path) (r : Request) :
    Decidable (r.AvoidsDeclarations o w args) :=
  inferInstanceAs (Decidable (∀ folder ∈ r.folder o w, ∀ unit ∈ r.units o,
    ¬w.tree.IsUnlinked (folder ++ [unit.fileName]) →
      ∀ place ∈ destination w.tree w.cwd (r.file o unit).path,
        w.tree.find? place = none → isCollected w args place = false))

/-- **No new file is collected as a declaration file.** -/
theorem Adds.collects_old {args paths : List Path} (h : Adds w tries v)
    (hasked : (tries.map Try.file).Sublist (requestedFiles o paths w))
    (hlinks : ∀ r ∈ requests o paths w, r.AvoidsDeclarations o w args) {place : Location}
    {content : ByteArray} (hcollected : isCollected w args place = true)
    (hfile : v.tree.find? place = some (.file content)) : w.tree.find? place ≠ none := by
  intro hmissing
  rcases h.fresh place _ hfile hmissing with hdirectory | ⟨earlier, a, later, rfl, hwrote, -, -⟩
  · cases hdirectory
  have hmem : a.file ∈ requestedFiles o paths w :=
    hasked.subset (List.mem_map_of_mem (List.mem_append_right _ List.mem_cons_self))
  obtain ⟨r, hr, hf⟩ := List.mem_flatMap.mp hmem
  rw [Request.files_eq] at hf
  obtain ⟨unit, hunit, hf⟩ := List.mem_map.mp hf
  have hname := isIdentifier_of_mem_requests hr
  have hplace : destination w.tree w.cwd (r.file o unit).path = some place := by
    refine destination_of_lookup h.changes.grown (show Purpose.target ≠ .entry by decide) ?_
    rw [← h.changes.cwd, hf]
    exact hwrote.2
  obtain ⟨folder, hfolder, hlast⟩ := Request.folder_of_destination hname hunit hplace
  by_cases hunlinked : w.tree.IsUnlinked (folder ++ [unit.fileName])
  · obtain ⟨arg, directory, rest, -, hsplit, hrest, hdeclaration⟩ :=
      exists_of_isCollected hcollected
    rcases List.eq_nil_or_concat rest with rfl | ⟨front, last, rfl⟩
    · exact hrest rfl
    · rw [List.concat_eq_append] at hsplit hdeclaration
      rw [hlast hunlinked, ← List.append_assoc] at hsplit
      obtain ⟨-, hsame⟩ := List.append_inj' hsplit rfl
      obtain ⟨hplain, hslash⟩ := Request.isPlain_of_mem_units hname hunit
      rw [← hsame, List.foldl_append, List.foldl_cons, List.foldl_nil,
        isDeclaration_join hplain hslash, endsWith_fileName hunit] at hdeclaration
      cases hdeclaration
  · rw [hlinks r hr folder hfolder unit hunit hunlinked place hplace hmissing] at hcollected
    cases hcollected

/-! ### Every file is there -/

/-- After an attempt that did not fail the file is there. -/
theorem OutputFile.kind?_of_write {f : OutputFile} {done : Written}
    (h : (f.write : Session (Except Failure Written)) w = (.ok done, v)) :
    ∃ kind, v.kind? f.path = some kind := by
  have hattempt := attempt_of_write h
  cases hattempt with
  | written there file changes => exact ⟨.file, World.kind?_of_file there file⟩
  | skipped kept there quiet =>
      obtain ⟨isKept, u, hkept, hafter⟩ := session_bind_cases h
      obtain ⟨rfl, -⟩ := isKept_cases hkept
      cases isKept with
      | false =>
          obtain ⟨stored, x, -, hlogged⟩ := session_bind_cases hafter
          cases stored <;> cases hlogged
      | true =>
          rw [OutputFile.isKept, kept] at hkept
          have hthere : (u.kind? f.path).isSome = true := congrArg Prod.fst hkept
          obtain ⟨kind, hkind⟩ := Option.isSome_iff_exists.mp hthere
          exact ⟨kind, quiet.kind? hkind⟩

/-- At the end of a trail the files of its deeds are there. -/
theorem Trail.there (h : Trail w tries v) {a : Try} (ha : a ∈ tries) {d : Deed}
    (hdeed : a.deed? = some d) : ∃ kind, v.kind? a.file.path = some kind := by
  induction h with
  | nil still => cases ha
  | @cons w u x v b tries still wrote rest ih =>
      rcases List.mem_cons.mp ha with rfl | ha
      · unfold Try.deed? at hdeed
        split at hdeed
        · rename_i done hresult
          rw [hresult] at wrote
          obtain ⟨kind, hkind⟩ := OutputFile.kind?_of_write wrote
          exact ⟨kind, rest.changes.kind? hkind⟩
        · cases hdeed
      · exact ih ha

/-- If all attempts are told of, none of them failed. -/
theorem Tells.exists_deed {units : List UnitOutcome} (h : Tells files tries (.ok units)) {a : Try}
    (ha : a ∈ tries) : ∃ d, a.deed? = some d ∧ a.outcome? = some d.outcome := by
  have houtcome := List.mem_map_of_mem (f := Try.outcome?) ha
  rw [h.2] at houtcome
  obtain ⟨unit, -, hunit⟩ := List.mem_map.mp houtcome
  obtain ⟨d, hdeed, hd⟩ := Option.map_eq_some_iff.mp hunit.symm
  exact ⟨d, hdeed, by rw [← hunit, hd]⟩

/-- If all attempts are told of, the files are there in the end. -/
theorem Tells.there {units : List UnitOutcome} (h : Tells files tries (.ok units))
    (htrail : Trail w tries v) : ∀ f ∈ files, ∃ kind, v.kind? f.path = some kind := by
  intro f hf
  rw [← h.1] at hf
  obtain ⟨a, ha, rfl⟩ := List.mem_map.mp hf
  obtain ⟨d, hdeed, -⟩ := h.exists_deed ha
  exact htrail.there ha hdeed

/-- The units that are told of have the paths of the files. -/
theorem Tells.asSkipped {units : List UnitOutcome} (h : Tells files tries (.ok units)) :
    units.map UnitOutcome.asSkipped = files.map fun f => ⟨f.path, .skipped⟩ := by
  have hsome : (units.map some).map (Option.map UnitOutcome.asSkipped) =
      (files.map fun f => (⟨f.path, .skipped⟩ : UnitOutcome)).map some := by
    rw [← h.2, ← h.1, List.map_map, List.map_map, List.map_map]
    refine List.map_congr_left fun a ha => ?_
    obtain ⟨d, hdeed, houtcome⟩ := h.exists_deed ha
    rw [Function.comp_apply, Function.comp_apply, houtcome]
    simp [UnitOutcome.asSkipped, Deed.outcome_path, Try.deed?_file hdeed]
  rw [List.map_map] at hsome
  have hmapped : (units.map UnitOutcome.asSkipped).map some =
      (files.map fun f => (⟨f.path, .skipped⟩ : UnitOutcome)).map some := by
    rw [← hsome, List.map_map]
    rfl
  exact List.map_injective_iff.mpr (Option.some_injective _) hmapped

/-! ### Files that are there are left alone -/

theorem write_of_there {f : OutputFile} {kind : Kind} (hkeep : f.overwrite = .ifMissing)
    (hthere : w.kind? f.path = some kind) :
    ∃ v, (f.write : Session (Except Failure Written)) w = (.ok .skipped, v) ∧ w.Still v := by
  have hkept : (f.isKept : Session Bool) w = (true, w) := by
    rw [OutputFile.isKept, hkeep]
    show ((w.kind? f.path).isSome, w) = (true, w)
    rw [hthere]
    rfl
  refine ⟨w.addLog ⟨.debug, "skipping existing file " ++ f.path⟩, ?_, ⟨rfl, rfl⟩⟩
  rw [OutputFile.write, session_bind, hkept]
  rfl

theorem produceAll_of_there (hkeep : ∀ f ∈ files, f.overwrite = .ifMissing)
    (hthere : ∀ f ∈ files, ∃ kind, w.kind? f.path = some kind) :
    ∃ v, (produceAll false files : Session (Except Failure (List UnitOutcome))) w =
      (.ok (files.map fun f => ⟨f.path, .skipped⟩), v) ∧ w.Still v := by
  induction files generalizing w with
  | nil => exact ⟨w, rfl, .refl w⟩
  | cons file files ih =>
      obtain ⟨kind, hkind⟩ := hthere file List.mem_cons_self
      obtain ⟨u, hwrite, hstill⟩ := write_of_there (hkeep file List.mem_cons_self) hkind
      obtain ⟨v, hothers, hstill'⟩ := ih (w := u)
        (fun f hf => hkeep f (List.mem_cons_of_mem file hf)) fun f hf => by
          rw [hstill.kind?]
          exact hthere f (List.mem_cons_of_mem file hf)
      have hfirst : (produce false file : Session (Except Failure UnitOutcome)) w =
          (.ok ⟨file.path, .skipped⟩, u) := by
        show ((file.write : Session (Except Failure Written)) >>= _) w = _
        rw [session_bind, hwrite]
        rfl
      refine ⟨v, ?_, hstill.trans hstill'⟩
      rw [produceAll, session_bind, hfirst]
      simp only
      rw [session_bind, hothers]
      rfl

/-! ### Declaration files that are read again -/

/-- A declaration file that is opened, and all of whose files are there, is reported with them left
alone. -/
theorem generateFile_of_there (hreal : o.dryRun = false) (hkeep : o.force = false) {d : Opened}
    (hopen : openAt o w path = .ok d)
    (hthere : ∀ f ∈ d.files o path, ∃ kind, w.kind? f.path = some kind) :
    ∃ v, (generateFile o path : Session (Except Failure DeclarationReport)) w =
      (.ok (d.report path ((d.files o path).map fun f => ⟨f.path, .skipped⟩)), v) ∧ w.Still v := by
  have hoverwrite : ∀ f ∈ d.files o path, f.overwrite = .ifMissing := by
    intro f hf
    rw [Opened.files, filesFor_eq] at hf
    obtain ⟨r, -, hf⟩ := List.mem_flatMap.mp hf
    exact overwrite_of_mem_files hkeep hf
  obtain ⟨u, hstill, hfile⟩ := generateFile_of_ok hopen
  obtain ⟨v, hproduced, hskipped⟩ := produceAll_of_there (w := u) hoverwrite fun f hf => by
    rw [hstill.kind?]
    exact hthere f hf
  refine ⟨v, ?_, hstill.trans hskipped⟩
  rw [hfile, hreal, hproduced]
  rfl

/-- The part of a declaration file that did not fail is repeated with all its files left alone. -/
theorem Part.Ran.repeats {part : Part} (h : part.Ran o w u) (hreal : o.dryRun = false)
    (hkeep : o.force = false) {touched : Location → Prop} (hlater : u.Changes touched v)
    (hkept : w.Changes (fun location => w.tree.find? location = none) v)
    {report : DeclarationReport} (hresult : part.result = .ok report) (hstill : v.Still x) :
    ∃ y, (generateFile o part.path : Session (Except Failure DeclarationReport)) x =
      (.ok report.asSkipped, y) ∧ v.Still y := by
  have htells := h.tells
  rw [hresult] at htells
  obtain ⟨d, -, hopen, -, -, hreport⟩ := opened_of_generateFile (h.generated.trans hresult)
  have hfiles : part.files o = d.files o part.path := by
    rw [Part.files, h.requests, requestsAt_of_ok hopen, Opened.files, filesFor_eq]
  have hagain : openAt o x part.path = .ok d := by
    obtain ⟨hread, hrepository⟩ := openAt_eq_ok_iff.mp hopen
    obtain ⟨bytes, hbytes⟩ := read_of_readText hread
    obtain ⟨location, hfound, hfile⟩ := World.file_of_read hbytes
    have halike : Alike w v (readText part.path) :=
      alike_readText (hkept.read (World.kind?_of_file hfound hfile))
    exact openAt_eq_ok_iff.mpr ⟨(halike w x (.refl w) hstill).1.trans hread, hrepository⟩
  obtain ⟨y, hgenerated, hy⟩ := generateFile_of_there hreal hkeep hagain fun f hf => by
    rw [← hfiles] at hf
    obtain ⟨kind, hkind⟩ := htells.there h.trail f hf
    exact ⟨kind, (hstill.kind? f.path).trans (hlater.kind? hkind)⟩
  refine ⟨y, ?_, hstill.trans hy⟩
  rw [hgenerated, DeclarationReport.asSkipped, htells.asSkipped, hfiles, hreport]
  rfl

theorem Course.repeats {parts : List Part} (h : Course o w parts v) (hreal : o.dryRun = false)
    (hkeep : o.force = false) (houtput : ∀ folder ∈ o.output, Grounded w.tree w.cwd folder)
    {part : Part} (hpart : part ∈ parts) {report : DeclarationReport}
    (hresult : part.result = .ok report) (hstill : v.Still x) :
    ∃ y, (generateFile o part.path : Session (Except Failure DeclarationReport)) x =
      (.ok report.asSkipped, y) ∧ v.Still y := by
  induction h with
  | nil w => cases hpart
  | @cons w u v first parts ran rest ih =>
      have hfirst := ran.adds hkeep houtput
      have houtput' : ∀ folder ∈ o.output, Grounded u.tree u.cwd folder := by
        intro folder hfolder
        rw [hfirst.changes.cwd]
        exact (houtput folder hfolder).mono hfirst.changes.grown
      rcases List.mem_cons.mp hpart with rfl | hpart
      · have hrest := rest.adds hkeep houtput'
        exact ran.repeats hreal hkeep hrest.changes (hfirst.append hrest).preserves hresult hstill
      · exact ih houtput' hpart hstill

/-! ### Runs -/

/-- The part did not fail, and whenever it is done again in this world all its files are left
alone. -/
def Part.Repeats (o : GenerateOptions) (v : World) (part : Part) : Prop :=
  ∃ report, part.result = .ok report ∧ ∀ x, v.Still x →
    ∃ y, (generateFile o part.path : Session (Except Failure DeclarationReport)) x =
      (.ok report.asSkipped, y) ∧ v.Still y

theorem runAll_of_repeats {parts : List Part} (h : ∀ part ∈ parts, part.Repeats o v)
    (hstill : v.Still x) :
    ∃ y, runAll o (parts.map Part.path) x =
      (((parts.filterMap Part.report?).map DeclarationReport.asSkipped, []), y) ∧ v.Still y := by
  induction parts generalizing x with
  | nil => exact ⟨x, rfl, hstill⟩
  | cons part parts ih =>
      obtain ⟨report, hresult, hrepeats⟩ := h part List.mem_cons_self
      obtain ⟨y, hfile, hy⟩ := hrepeats x hstill
      obtain ⟨z, hrest, hz⟩ := ih (fun p hp => h p (List.mem_cons_of_mem part hp)) hy
      refine ⟨z, ?_, hz⟩
      rw [List.map_cons, runAll_of_ok _ hfile, hrest,
        List.filterMap_cons_some (b := report) (by rw [Part.report?, hresult]; rfl)]
      rfl

/-- **A run without failures is repeated with all its files left alone**, unless it is told to
replace files. -/
theorem generate_repeats (paths : List Path) (hreal : o.dryRun = false) (hkeep : o.force = false)
    (houtput : ∀ folder ∈ o.output, Grounded w.tree w.cwd folder)
    (hdone : ((generate o paths : Session GenerationReport) w).1.failures = [])
    (hstill : ((generate o paths : Session GenerationReport) w).2.Still x) :
    ∃ y, (generate o paths : Session GenerationReport) x =
        (((generate o paths : Session GenerationReport) w).1.asSkipped, y) ∧
      ((generate o paths : Session GenerationReport) w).2.Still y := by
  obtain ⟨parts, hcourse, hpaths, -, hresult⟩ := course_of_runAll hreal paths w
  have hdeclarations : ((generate o paths : Session GenerationReport) w).1.declarations =
      parts.filterMap Part.report? := congrArg Prod.fst hresult
  have hfailures : parts.filterMap Part.failure? = [] :=
    (congrArg Prod.snd hresult).symm.trans hdone
  have hrepeats : ∀ part ∈ parts,
      part.Repeats o ((generate o paths : Session GenerationReport) w).2 := by
    intro part hpart
    have hnone := List.filterMap_eq_nil_iff.mp hfailures part hpart
    unfold Part.failure? at hnone
    split at hnone
    · rename_i report hreport
      exact ⟨report, hreport, fun x hx => hcourse.repeats hreal hkeep houtput hpart hreport hx⟩
    · cases hnone
  obtain ⟨y, hagain, hy⟩ := runAll_of_repeats hrepeats hstill
  refine ⟨y, ?_, hy⟩
  rw [hpaths, ← hdeclarations] at hagain
  show (runAll o paths >>= _) x = _
  rw [session_bind, hagain, GenerationReport.asSkipped, hdone]
  rfl

end UseCases.Project
