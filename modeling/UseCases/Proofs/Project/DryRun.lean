/-
What a dry run foretells.

A dry run opens every declaration file in the tree as it is, and a real run opens it in a tree that
the files of the others were written to.  Where no link stands that makes no difference, as long as
no declaration file lies beneath, above or in the place of a file that is written: it is read as
before.  So the real run reports the files that were previewed and writes what was previewed, and of
several files for one place the last one stays.

A declaration file that cannot be read fails in both runs.  The reason may change: a name that is
too long is not refused before the directory is there that it is looked up in.
-/
import Mathlib.Data.List.Forall2
import UseCases.Proofs.Project.Filling

namespace UseCases.Project

open Declaration Files Generation Report

variable {o : GenerateOptions} {w u v : World} {path : Path} {paths : List Path}
  {files done : List OutputFile} {location : Location}

/-! ### Previews -/

/-- How a dry run reports the file. -/
def OutputFile.previewed (f : OutputFile) : UnitOutcome :=
  ⟨f.path, .preview f.content⟩

/-- The report of a real run that writes all the files. -/
def asWritten (report : DeclarationReport) : DeclarationReport :=
  { report with units := report.units.map fun unit => ⟨unit.path, .written⟩ }

theorem produceAll_dry (files : List OutputFile) (w : World) :
    (produceAll true files : Session (Except Failure (List UnitOutcome))) w =
      (.ok (files.map OutputFile.previewed), w) := by
  induction files with
  | nil => rfl
  | cons file files ih =>
      have hfirst : (produce true file : Session (Except Failure UnitOutcome)) w =
          (.ok file.previewed, w) := rfl
      rw [produceAll, session_bind_of hfirst]
      exact session_bind_of ih

/-- What a dry run says of a declaration file: it is reported with previews of all its files, if it
can be opened. -/
def foretold (o : GenerateOptions) (w : World) (path : Path) :
    DeclarationReport ⊕ FailedDeclaration :=
  match openAt o w path with
  | .ok d => .inl (d.report path ((plan o w path).map OutputFile.previewed))
  | .error failure => .inr ⟨path, failure.message⟩

theorem foretold_of_ok {d : Opened} (h : openAt o w path = .ok d) :
    foretold o w path = .inl (d.report path ((plan o w path).map OutputFile.previewed)) := by
  rw [foretold, h]

theorem foretold_of_error {failure : Failure} (h : openAt o w path = .error failure) :
    foretold o w path = .inr ⟨path, failure.message⟩ := by
  rw [foretold, h]

theorem entry_dry (hdry : o.dryRun = true) (path : Path) (w : World) :
    Turn.entry o ⟨path, w⟩ = foretold o w path := by
  cases hopen : openAt o w path with
  | error failure => rw [entry_of_openAt_error hopen, foretold_of_error hopen]
  | ok d =>
      obtain ⟨u, result, x, -, hproduced, -, hentry⟩ := entry_of_openAt hopen
      rw [hdry, produceAll_dry] at hproduced
      cases hproduced
      rw [hentry, foretold_of_ok hopen, plan_of_ok hopen]

/-- The turns of a dry run all find the world as it is. -/
theorem entries_dry (hdry : o.dryRun = true) (paths : List Path) (w : World) :
    entries o paths w = paths.map (foretold o w) := by
  induction paths with
  | nil => rfl
  | cons path paths ih =>
      rw [entries_cons, entries_still (onlyLogs_runAll hdry [path] w), ih, entry_dry hdry,
        List.map_cons]

/-- Whether files are replaced does not show in previews. -/
theorem previewed_plan (o : GenerateOptions) (dryRun force : Bool) :
    (plan { o with dryRun := dryRun, force := force } w path).map OutputFile.previewed =
      (plan o w path).map OutputFile.previewed := by
  have hsame : openAt { o with dryRun := dryRun, force := force } w path = openAt o w path := rfl
  cases hopen : openAt o w path with
  | error failure => rw [plan_of_error hopen, plan_of_error (hsame.trans hopen)]
  | ok d =>
      rw [plan_of_ok hopen, plan_of_ok (hsame.trans hopen), Opened.files, Opened.files,
        GenerateOptions.filesFor, GenerateOptions.filesFor, List.map_flatMap, List.map_flatMap]
      refine List.flatMap_congr fun method _ => ?_
      rw [List.map_map, List.map_map]
      rfl

theorem foretold_congr (o : GenerateOptions) (dryRun force : Bool) :
    foretold { o with dryRun := dryRun, force := force } w path = foretold o w path := by
  rw [foretold, foretold, previewed_plan]
  rfl

/-- The units of a dry run are the previews of the planned files. -/
theorem units_foretold (o : GenerateOptions) (w : World) (paths : List Path) :
    ((paths.map (foretold o w)).filterMap Sum.getLeft?).flatMap DeclarationReport.units =
      (paths.flatMap (plan o w)).map OutputFile.previewed := by
  induction paths with
  | nil => rfl
  | cons path paths ih =>
      rw [List.map_cons, List.flatMap_cons, List.map_append, ← ih]
      cases hopen : openAt o w path with
      | error failure =>
          rw [foretold_of_error hopen, plan_of_error hopen]
          rfl
      | ok d =>
          rw [foretold_of_ok hopen]
          rfl

/-- The content that a unit is previewed with. -/
def previewContent? (unit : UnitOutcome) : Option String :=
  match unit.status with
  | .preview content => some content
  | .written | .skipped => none

/-- The content of the last preview for a location. -/
def lastPreview? (cwd : Location) (units : List UnitOutcome) (location : Location) :
    Option String :=
  (units.filterMap fun unit =>
    if unit.path.place cwd = location then previewContent? unit else none).getLast?

theorem lastPreview?_previewed (cwd : Location) (files : List OutputFile) (location : Location) :
    lastPreview? cwd (files.map OutputFile.previewed) location =
      lastContent? cwd files location := by
  rw [lastPreview?, List.filterMap_map]
  rfl

/-! ### Files that are written in any case -/

theorem keeps_of_always {f : OutputFile} (h : f.overwrite = .always) (w : World) :
    f.keeps w = false := by
  rw [OutputFile.keeps, h]

theorem overwrite_of_mem_plan {f : OutputFile} (hforce : o.force = true) (hf : f ∈ plan o w path) :
    f.overwrite = .always := by
  obtain ⟨r, -, hf⟩ := List.mem_flatMap.mp hf
  rw [Request.files_eq] at hf
  obtain ⟨unit, -, rfl⟩ := List.mem_map.mp hf
  rw [Request.file, GenerateOptions.overwrite, hforce]
  rfl

/-- That files are replaced is known beforehand. -/
theorem foreseen_of_always (h : ∀ f ∈ files, f.overwrite = .always) (w : World) :
    Foreseen (fun _ => false) files w := by
  rintro before f after u rfl -
  exact keeps_of_always (h f (List.mem_append_right _ List.mem_cons_self)) u

theorem unkept_false (files : List OutputFile) : unkept (fun _ => false) files = files :=
  List.filter_true files

/-! ### The run that was foretold -/

/-- The same declaration file failed, and for the same reason, unless a name that is too long stands
below a missing place. -/
def FailsAlike (w : World) (foretold failure : FailedDeclaration) : Prop :=
  failure.path = foretold.path ∧ (foretold.path.Fits w.tree w.cwd → failure = foretold)

/-- What comes of an entry of a dry run: a declaration is reported with its files written, and a
failure fails alike. -/
inductive ComesTrue (w : World) : DeclarationReport ⊕ FailedDeclaration →
    DeclarationReport ⊕ FailedDeclaration → Prop
  | declaration (report : DeclarationReport) :
      ComesTrue w (.inl report) (.inl (asWritten report))
  | failure {foretold failure : FailedDeclaration} (fails : FailsAlike w foretold failure) :
      ComesTrue w (.inr foretold) (.inr failure)

theorem ComesTrue.reports {foretold entries : List (DeclarationReport ⊕ FailedDeclaration)}
    (h : List.Forall₂ (ComesTrue w) foretold entries) :
    entries.filterMap Sum.getLeft? = (foretold.filterMap Sum.getLeft?).map asWritten ∧
      List.Forall₂ (FailsAlike w) (foretold.filterMap Sum.getRight?)
        (entries.filterMap Sum.getRight?) := by
  induction h with
  | nil => exact ⟨rfl, .nil⟩
  | cons hcomes _ ih =>
      cases hcomes with
      | declaration report => exact ⟨congrArg (asWritten report :: ·) ih.1, ih.2⟩
      | failure hfails => exact ⟨ih.1, .cons hfails ih.2⟩

section Foretold

variable (hlinkless : w.tree.Linkless) (houtput : ∀ folder ∈ o.output, ".." ∉ Path.steps folder)
include hlinkless

/-- A declaration file beside all that was written is opened as before, or fails as before. -/
theorem openAt_filled (hfilled : Filled done w v) (hup : ".." ∉ path.steps)
    (hbeside : ∀ f ∈ done, Beside (path.place w.cwd) (f.place w.cwd)) :
    (∃ d, openAt o w path = .ok d ∧ openAt o v path = .ok d) ∨
      ∃ failure failure', openAt o w path = .error failure ∧ openAt o v path = .error failure' ∧
        (path.Fits w.tree w.cwd → failure' = failure) := by
  have hbeside' : ∀ place, GoesTo w.cwd done place → Beside (path.place w.cwd) place := by
    rintro place ⟨f, hf, rfl⟩
    exact hbeside f hf
  have hfree : ¬GoesTo w.cwd done (path.place w.cwd) := fun hgoes => (hbeside' _ hgoes).ne rfl
  have hiff : ∀ d, openAt o v path = .ok d ↔ openAt o w path = .ok d :=
    fun d => openAt_ok_iff hfilled.builds hlinkless hup hfree
  cases hold : openAt o w path with
  | ok d => exact Or.inl ⟨d, rfl, (hiff d).mpr hold⟩
  | error failure =>
      cases hnew : openAt o v path with
      | ok d =>
          rw [(hiff d).mp hnew] at hold
          cases hold
      | error failure' =>
          refine Or.inr ⟨failure, failure', rfl, rfl, fun hfits => ?_⟩
          rw [openAt_of_read (hfilled.builds.read hlinkless hup hfits hbeside'), hold] at hnew
          cases hnew
          rfl

include houtput

/-- A turn of the real run does what the dry run foretold of its declaration file. -/
theorem turn_foretold (hreal : o.dryRun = false) (hforce : o.force = true)
    (hup : ".." ∉ path.steps) (hfilled : Filled done w v)
    (hbeside : ∀ f ∈ done, Beside (path.place w.cwd) (f.place w.cwd))
    (hwrites : (Turn.entry o ⟨path, v⟩).isRight = true → Turn.IsRefused o ⟨path, v⟩) :
    Filled (plan o w path) v (runAll o [path] v).2 ∧
      ComesTrue w (foretold o w path) (Turn.entry o ⟨path, v⟩) := by
  rcases openAt_filled hlinkless hfilled hup hbeside with
    ⟨d, hold, hnew⟩ | ⟨failure, failure', hold, hnew, hsame⟩
  · obtain ⟨u, result, x, hstill, hproduced, hend, hentry⟩ := entry_of_openAt hnew
    cases result with
    | error failure =>
        obtain ⟨failure', hrefused⟩ := hwrites (by rw [hentry]; rfl)
        rw [hnew] at hrefused
        cases hrefused
    | ok units =>
        have hfilled' := hfilled.still hstill
        rw [hreal, ← plan_of_ok hold] at hproduced
        obtain ⟨rfl, hwritten⟩ := filled_of_produceAll
          (foreseen_of_always (fun f hf => overwrite_of_mem_plan hforce hf) u)
          (hfilled'.linkless hlinkless) (fun f hf => up_notMem_plan houtput hup hf) hproduced
        rw [unkept_false] at hwritten
        have hunits : (plan o w path).map (settled fun _ => false) =
            ((plan o w path).map OutputFile.previewed).map fun unit => ⟨unit.path, .written⟩ := by
          rw [List.map_map]
          rfl
        refine ⟨(hwritten.still hend).after hstill, ?_⟩
        rw [foretold_of_ok hold, hentry, hunits]
        exact .declaration _
  · rw [plan_of_error hold, foretold_of_error hold, entry_of_openAt_error hnew]
    refine ⟨.of_still (still_of_isRefused ⟨failure', hnew⟩), .failure ⟨rfl, fun hfits => ?_⟩⟩
    rw [hsame hfits]

/-- **The real run does what the dry run foretold.** -/
theorem runAll_foretold (hreal : o.dryRun = false) (hforce : o.force = true)
    (hup : ∀ path ∈ paths, ".." ∉ Path.steps path) (hfilled : Filled done w v)
    (hbeside : ∀ path ∈ paths, ∀ f ∈ done ++ paths.flatMap (plan o w),
      Beside (Path.place w.cwd path) (f.place w.cwd))
    (hwrites : ∀ turn ∈ turns o paths v, (turn.entry o).isRight = true → turn.IsRefused o) :
    Filled (done ++ paths.flatMap (plan o w)) w (runAll o paths v).2 ∧
      List.Forall₂ (ComesTrue w) (paths.map (foretold o w)) (entries o paths v) := by
  induction paths generalizing v done with
  | nil =>
      rw [List.flatMap_nil, List.append_nil]
      exact ⟨hfilled, .nil⟩
  | cons path paths ih =>
      rw [List.flatMap_cons, ← List.append_assoc] at hbeside ⊢
      obtain ⟨hwritten, htrue⟩ := turn_foretold hlinkless houtput hreal hforce
        (hup path List.mem_cons_self) hfilled
        (fun f hf => hbeside path List.mem_cons_self f
          (List.mem_append_left _ (List.mem_append_left _ hf)))
        (hwrites ⟨path, v⟩ List.mem_cons_self)
      obtain ⟨hrest, hentries⟩ := ih (fun p hp => hup p (List.mem_cons_of_mem _ hp))
        (hfilled.append hwritten) (fun p hp => hbeside p (List.mem_cons_of_mem _ hp))
        (fun turn hturn => hwrites turn (List.mem_cons_of_mem _ hturn))
      rw [runAll_cons, entries_cons, List.map_cons]
      exact ⟨hrest, .cons htrue hentries⟩

end Foretold

/-! ### Runs -/

/-- The second run, on the same world, comes to what the first one foretold. -/
structure Foretells (w : World) (dry real : GenerationReport × World) : Prop where
  /-- The same declaration files fail. -/
  failures : List.Forall₂ (FailsAlike w) dry.1.failures real.1.failures
  /-- The others are reported with the same units, all of them written. -/
  declarations : real.1.declarations = dry.1.declarations.map asWritten
  /-- Each unit has the content of the last preview for its place. -/
  units : ∀ unit ∈ dry.1.units, ∃ content,
    lastPreview? w.cwd dry.1.units (unit.path.place w.cwd) = some content ∧
      real.2.read unit.path = .ok content.toUTF8
  /-- No other file changed. -/
  others : ∀ location, (∀ unit ∈ dry.1.units, unit.path.place w.cwd ≠ location) → ∀ content,
    real.2.tree.find? location = some (.file content) ↔
      w.tree.find? location = some (.file content)

/--
**A dry run touches nothing, and the real run does what it foretold.**  Where no link stands and no
path goes up, take a real run with the same options that replaces what there is.  If no given path
lies in the place of a unit, above it or beneath it, and no declaration file fails once it is opened,
then the real run comes to what the dry run foretold.
-/
theorem generate_foretold (o : GenerateOptions) (paths : List Path) (w : World)
    (hlinkless : w.tree.Linkless) (hup : ∀ path ∈ paths, ".." ∉ Path.steps path)
    (houtput : ∀ folder ∈ o.output, ".." ∉ Path.steps folder) :
    let replacing := { o with dryRun := false, force := true }
    let dry := (generate { o with dryRun := true } paths : Session GenerationReport) w
    let real := (generate replacing paths : Session GenerationReport) w
    dry.2.tree = w.tree ∧
      ((∀ path ∈ paths, ∀ unit ∈ dry.1.units,
          Beside (Path.place w.cwd path) (unit.path.place w.cwd)) →
        (∀ turn ∈ turns replacing paths w, (turn.entry replacing).isRight = true →
          turn.IsRefused replacing) →
        Foretells w dry real) := by
  intro replacing dry real
  refine ⟨(onlyLogs_runAll rfl paths w).tree, fun hbeside hwrites => ?_⟩
  -- what the dry run says, in terms of the files that the real run is asked for
  have hentries : entries { o with dryRun := true } paths w = paths.map (foretold replacing w) := by
    rw [entries_dry rfl]
    refine List.map_congr_left fun path _ => ?_
    rw [foretold_congr o true o.force, foretold_congr o false true]
  have hdeclared := declarations_generate { o with dryRun := true } paths w
  have hfailed := failures_generate { o with dryRun := true } paths w
  rw [hentries] at hdeclared hfailed
  have hunits : dry.1.units = (paths.flatMap (plan replacing w)).map OutputFile.previewed := by
    rw [← units_foretold, ← hdeclared]
    rfl
  have hplanned : ∀ path ∈ paths, ∀ f ∈ [] ++ paths.flatMap (plan replacing w),
      Beside (Path.place w.cwd path) (f.place w.cwd) := by
    intro path hpath f hf
    refine hbeside path hpath f.previewed ?_
    rw [hunits]
    exact List.mem_map_of_mem hf
  obtain ⟨hfilled, htrue⟩ := runAll_foretold (o := replacing) hlinkless houtput rfl rfl hup
    (Filled.of_still (World.Still.refl w)) hplanned hwrites
  rw [List.nil_append] at hfilled
  obtain ⟨hdeclarations, hfailures⟩ := ComesTrue.reports htrue
  rw [← failures_generate, ← hfailed] at hfailures
  rw [← declarations_generate, ← hdeclared] at hdeclarations
  refine ⟨hfailures, hdeclarations, ?units, ?others⟩
  case units =>
    intro unit hunit
    rw [hunits] at hunit ⊢
    obtain ⟨f, hf, rfl⟩ := List.mem_map.mp hunit
    rw [lastPreview?_previewed]
    cases hlast : lastContent? w.cwd (paths.flatMap (plan replacing w)) (f.place w.cwd) with
    | none => exact absurd rfl (place_ne_of_lastContent? hlast f hf)
    | some content =>
        exact ⟨content, hlast, World.read_eq_ok (hfilled.targets f hf)
          (hfilled.contents _ content hlast)⟩
  case others =>
    intro location hfree content
    refine hfilled.builds.files location ?_ content
    rintro ⟨f, hf, hplace⟩
    refine hfree f.previewed ?_ hplace
    rw [hunits]
    exact List.mem_map_of_mem hf

/-! ### Runs that were previewed -/

/-- Declaration files of which one is no text, a use case that was written by hand, and a note. -/
def drafted : World :=
  worldOf
    [ ([], "a_repository.dart", .file "Future<void> get();\n".toUTF8),
      ([], "b_repository.dart", .file "Future<int> get();\nFuture<int> put();\n".toUTF8),
      ([], "c_repository.dart", .file ⟨#[0xff]⟩), ([], "usecases", .directory),
      (["usecases"], "get_use_case.dart", .file "by hand".toUTF8),
      (["usecases"], "notes", .file "a note".toUTF8) ]

def draftedPaths : List Path :=
  ["a_repository.dart", "c_repository.dart", "usecases/missing.dart", "./b_repository.dart"]

/-- Files that exist are kept. -/
def draftingOptions : GenerateOptions :=
  ⟨.simple, "shop", some "Cart", "core/error/failures.dart", none, false, false⟩

theorem drafted_foretold :
    let replacing := { draftingOptions with dryRun := false, force := true }
    let dry := (generate { draftingOptions with dryRun := true } draftedPaths :
      Session GenerationReport) drafted
    let real := (generate replacing draftedPaths : Session GenerationReport) drafted
    dry.2.tree = drafted.tree ∧ Foretells drafted dry real := by
  have hforetold := generate_foretold draftingOptions draftedPaths drafted (by decide +kernel)
    (by decide +kernel) (by decide +kernel)
  exact ⟨hforetold.1, hforetold.2 (by decide +kernel) (by decide +kernel)⟩

/-! ### Names that are too long -/

theorem entry_of_read_error {e : OsError} (h : w.read path = .error e) :
    Turn.entry o ⟨path, w⟩ = .inr ⟨path, (Failure.read path e).message⟩ :=
  entry_of_openAt_error (openAt_of_read_error h)

theorem isRefused_of_read_error {e : OsError} (h : w.read path = .error e) :
    Turn.IsRefused o ⟨path, w⟩ :=
  ⟨_, openAt_of_read_error h⟩

/-- A path with a name that is too long is not found as long as the directory is missing, and refused
once it is there. -/
theorem read_overlong {folder name : String} (hfolder : IsPlain folder ∧ '/' ∉ folder.toList)
    (hfits : Text.utf8Length folder.toList ≤ maxName) (hname : IsPlain name ∧ '/' ∉ name.toList)
    (hlong : maxName < Text.utf8Length name.toList)
    (hpath : path.toList = folder.toList ++ '/' :: name.toList)
    (hnul : '\x00' ∉ path.toList) (hshort : Text.utf8Length path.toList < maxPath) (w : World) :
    (w.tree.find? (w.cwd ++ [folder]) = none → w.read path = .error .notFound) ∧
      (w.tree.find? (w.cwd ++ [folder]) = some .directory → w.read path = .error .nameTooLong) := by
  have hpieces : pathPieces path = [folder, name] := by
    rw [pathPieces_append_slash hpath, pathPieces_name hfolder.2, pathPieces_name hname.2]
    rfl
  obtain ⟨c, cs, hcs⟩ := List.exists_cons_of_ne_nil fun hnil : folder.toList = [] =>
    hfolder.1.1 (Or.inl (String.toList_inj.mp hnil))
  have hlookup : w.target path = followLinks w.tree .target maxLinks w.cwd [folder, name] := by
    have hnul' : ¬path.toList.contains '\x00' = true := by rwa [List.contains_iff_mem]
    have hempty : ¬path.isEmpty = true := by
      rw [String.isEmpty_iff]
      rintro rfl
      rw [hcs] at hpath
      cases hpath
    have hstart : startOf w.cwd path = w.cwd := by
      have hslash : ¬c = '/' := by
        rintro rfl
        exact hfolder.2 (hcs ▸ List.mem_cons_self)
      rw [startOf, Path.isAbsolute, hpath, hcs]
      exact if_neg (by simpa using hslash)
    rw [World.target, lookup, if_neg hnul', if_neg hempty, if_neg (Nat.not_le.mpr hshort), hstart,
      hpieces]
  have hadmits : Purpose.target.Admits folder [name] := admits_target hfits
  constructor
  · intro hmissing
    have hstretch : stretch w.tree .target w.cwd [folder, name] = .ended (.failed .notFound) := by
      have hends : ¬([name].isEmpty || isSlash [name]) = true := by
        simpa [isSlash] using fun h => hname.1.1 (Or.inl h)
      rw [stretch_none hfolder.1 hadmits hmissing, if_neg hends]
    rw [followLinks_ended hstretch] at hlookup
    exact World.read_of_failure (by rw [hlookup]; rfl)
  · intro hthere
    have hstretch : stretch w.tree .target w.cwd [folder, name] =
        .ended (.failed .nameTooLong) := by
      rw [stretch_directory hfolder.1 hadmits hthere, stretch_long hname.1 hlong]
    rw [followLinks_ended hstretch] at hlookup
    exact World.read_of_failure (by rw [hlookup]; rfl)

section Unread

variable {e : OsError} (h : (runAll o paths w).2.read path = .error e)
include h

/-- A declaration file that cannot be read, at the end of a run, adds a failure and nothing else. -/
theorem entries_append_unread : entries o (paths ++ [path]) w =
    entries o paths w ++ [.inr ⟨path, (Failure.read path e).message⟩] := by
  rw [entries, turns_append, List.map_append, ← entries, turns_singleton, List.map_singleton,
    entry_of_read_error h]

theorem units_append_unread :
    ((generate o (paths ++ [path]) : Session GenerationReport) w).1.units =
      ((generate o paths : Session GenerationReport) w).1.units := by
  rw [GenerationReport.units, GenerationReport.units, declarations_generate,
    declarations_generate, entries_append_unread h, List.filterMap_append]
  simp only [List.filterMap_cons, Sum.getLeft?_inr, List.filterMap_nil, List.append_nil]

theorem failures_append_unread :
    ((generate o (paths ++ [path]) : Session GenerationReport) w).1.failures =
      ((generate o paths : Session GenerationReport) w).1.failures ++
        [⟨path, (Failure.read path e).message⟩] := by
  rw [failures_generate, failures_generate, entries_append_unread h, List.filterMap_append]
  rfl

theorem still_append_unread : (runAll o paths w).2.Still
    ((generate o (paths ++ [path]) : Session GenerationReport) w).2 := by
  rw [world_generate, runAll_append]
  exact still_of_isRefused (isRefused_of_read_error h)

end Unread

/-- The reason shows in the failure. -/
theorem append_overlong_ne (before before' : List FailedDeclaration) (path : Path) :
    before ++ [⟨path, (Failure.read path .nameTooLong).message⟩] ≠
      before' ++ [⟨path, (Failure.read path .notFound).message⟩] := by
  have hmessage : ∀ e, (Failure.read path e).message =
      "failed to read " ++ Failure.quoted path ++ ": " ++ e.message := fun e => rfl
  intro hsame
  have hlast := List.append_inj_right' hsame
    (List.length_singleton.trans List.length_singleton.symm)
  have hreason := (FailedDeclaration.mk.inj (List.singleton_inj.mp hlast)).2
  rw [hmessage, hmessage, String.append_right_inj] at hreason
  exact absurd hreason (by decide)

/-- A name that no file can have. -/
def overlong : String :=
  String.ofList (List.replicate 256 'x')

theorem toList_overlong : overlong.toList = List.replicate 256 'x' :=
  String.toList_ofList

theorem notMem_overlong {c : Char} (h : c ≠ 'x') : c ∉ overlong.toList := by
  rw [toList_overlong]
  exact fun hmem => h (List.eq_of_mem_replicate hmem)

theorem overlong_ne {name : String} (h : name.toList.length ≠ 256) : overlong ≠ name := by
  rintro rfl
  rw [toList_overlong, List.length_replicate] at h
  exact h rfl

theorem isPlain_overlong : IsPlain overlong := by
  refine ⟨?_, overlong_ne (by decide)⟩
  rintro (h | h)
  · exact overlong_ne (by decide) h
  · exact overlong_ne (by decide) h

/-- A path with this name, in a directory that a run makes. -/
def overlongPath : Path :=
  Path.join "usecases" overlong

theorem read_overlongPath (w : World) :
    (w.tree.find? (w.cwd ++ ["usecases"]) = none → w.read overlongPath = .error .notFound) ∧
      (w.tree.find? (w.cwd ++ ["usecases"]) = some .directory →
        w.read overlongPath = .error .nameTooLong) := by
  have hslash : '/' ∉ overlong.toList := notMem_overlong (by decide)
  have hpath : overlongPath.toList = "usecases".toList ++ '/' :: overlong.toList := by
    rw [overlongPath, Path.join, isAbsolute_name hslash, if_neg Bool.false_ne_true,
      if_neg (by decide), String.toList_append, String.toList_append, List.append_assoc]
    rfl
  refine read_overlong ⟨⟨by decide, by decide⟩, by decide⟩ (by decide) ⟨isPlain_overlong, hslash⟩ ?_
    hpath ?_ ?_ w
  · rw [toList_overlong]
    decide +kernel
  · rw [hpath, List.mem_append, List.mem_cons]
    rintro (hmem | hslash | hmem)
    · exact absurd hmem (by decide)
    · cases hslash
    · exact notMem_overlong (by decide) hmem
  · rw [hpath, toList_overlong]
    decide +kernel

theorem up_notMem_overlongPath : ".." ∉ overlongPath.steps :=
  up_notMem_join (by decide) isPlain_overlong (notMem_overlong (by decide))

/-- The overlong name stands beside the use case in its directory. -/
theorem beside_overlongPath :
    Beside (overlongPath.place ["app"]) ["app", "usecases", "get_use_case.dart"] := by
  have hplace : overlongPath.place ["app"] = ["app", "usecases", overlong] := by
    rw [overlongPath, place_join isPlain_overlong (notMem_overlong (by decide))]
    rfl
  have hne : overlong ≠ "get_use_case.dart" := overlong_ne (by decide)
  rw [hplace]
  constructor <;> simp [hne, hne.symm]

/-- Two declaration files with the same method. -/
def twofold : World :=
  worldOf
    [ ([], "a_repository.dart", .file "Future<void> get();\n".toUTF8),
      ([], "b_repository.dart", .file "Future<int> get();\n".toUTF8) ]

def twofoldPaths : List Path :=
  ["a_repository.dart", "./b_repository.dart"]

def previewingOptions : GenerateOptions :=
  { draftingOptions with dryRun := true }

def rewritingOptions : GenerateOptions :=
  { draftingOptions with dryRun := false, force := true }

def twofoldPreview : GenerationReport × World :=
  (generate previewingOptions (twofoldPaths ++ [overlongPath]) : Session GenerationReport) twofold

def twofoldRun : GenerationReport × World :=
  (generate rewritingOptions (twofoldPaths ++ [overlongPath]) : Session GenerationReport) twofold

theorem read_after_preview :
    (runAll previewingOptions twofoldPaths twofold).2.read overlongPath = .error .notFound := by
  rw [(onlyLogs_runAll rfl twofoldPaths twofold).read]
  exact (read_overlongPath twofold).1 (by rw [← Option.isNone_iff_eq_none]; decide)

theorem read_after_run :
    (runAll rewritingOptions twofoldPaths twofold).2.read overlongPath = .error .nameTooLong :=
  (read_overlongPath _).2 (Tree.find?_eq_some_directory (by decide +kernel))

theorem units_twofoldPreview : twofoldPreview.1.units =
    ((generate previewingOptions twofoldPaths : Session GenerationReport) twofold).1.units :=
  units_append_unread read_after_preview

theorem failures_twofold : twofoldRun.1.failures ≠ twofoldPreview.1.failures := by
  rw [twofoldRun, twofoldPreview, failures_append_unread read_after_run,
    failures_append_unread read_after_preview]
  exact append_overlong_ne _ _ overlongPath

theorem read_twofoldRun (p : Path) :
    twofoldRun.2.read p = (runAll rewritingOptions twofoldPaths twofold).2.read p := by
  rw [twofoldRun]
  exact (still_append_unread read_after_run).read p

/-- The overlong name is first looked up in a missing directory and then refused; and the preview of a
unit is not what its path holds, as a later unit goes to the same place by another path. -/
theorem preview_does_not_come_true :
    (twofold.tree.Linkless ∧
        (∀ path ∈ twofoldPaths ++ [overlongPath], ".." ∉ Path.steps path) ∧
        (∀ path ∈ twofoldPaths ++ [overlongPath], ∀ unit ∈ twofoldPreview.1.units,
          Beside (Path.place twofold.cwd path) (unit.path.place twofold.cwd)) ∧
        ∀ turn ∈ turns rewritingOptions (twofoldPaths ++ [overlongPath]) twofold,
          (turn.entry rewritingOptions).isRight = true → turn.IsRefused rewritingOptions) ∧
      twofoldRun.1.failures ≠ twofoldPreview.1.failures ∧
      ∃ unit ∈ twofoldPreview.1.units,
        (∀ other ∈ twofoldPreview.1.units, other.path = unit.path → other = unit) ∧
          ∃ content ∈ previewContent? unit, twofoldRun.2.read unit.path ≠ .ok content.toUTF8 := by
  have hplaces : ∀ unit ∈ ((generate previewingOptions twofoldPaths : Session GenerationReport)
      twofold).1.units, unit.path.place twofold.cwd = ["app", "usecases", "get_use_case.dart"] := by
    decide +kernel
  rw [units_twofoldPreview]
  refine ⟨⟨by decide +kernel, ?up, ?beside, ?refused⟩, ?failures, ?hidden⟩
  case up =>
    intro path hpath
    rcases List.mem_append.mp hpath with hpath | hpath
    · exact (by decide +kernel : ∀ path ∈ twofoldPaths, ".." ∉ Path.steps path) path hpath
    · rw [List.mem_singleton.mp hpath]
      exact up_notMem_overlongPath
  case beside =>
    intro path hpath unit hunit
    rw [hplaces unit hunit]
    rcases List.mem_append.mp hpath with hpath | hpath
    · exact (by decide +kernel : ∀ path ∈ twofoldPaths, Beside (Path.place twofold.cwd path)
        ["app", "usecases", "get_use_case.dart"]) path hpath
    · rw [List.mem_singleton.mp hpath]
      exact beside_overlongPath
  case refused =>
    have hgiven : ∀ turn ∈ turns rewritingOptions twofoldPaths twofold,
        (turn.entry rewritingOptions).isRight = true → turn.IsRefused rewritingOptions := by
      decide +kernel
    intro turn hturn
    rw [turns_append, turns_singleton] at hturn
    rcases List.mem_append.mp hturn with hturn | hturn
    · exact hgiven turn hturn
    · rw [List.mem_singleton.mp hturn]
      exact fun _ => isRefused_of_read_error read_after_run
  case failures => exact failures_twofold
  case hidden =>
    simp only [read_twofoldRun]
    decide +kernel

end UseCases.Project
