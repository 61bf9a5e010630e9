/-
Generating use cases twice.

The command line comes to a plan: how to generate, and from which declaration files.  The second run
finds the same plan if the settings and the pubspec are found as they were and no new file is
collected as a declaration file.  Then it skips what the first one wrote or skipped.

A first run can change what the second one finds although it replaces nothing: it makes directories,
through which a path leads that led nowhere before, and it makes files where links lead.
-/
import UseCases.CommandLine.Run
import UseCases.Proofs.Project.Repetition

namespace UseCases.CommandLine

open Files Generation Project Report Settings

variable {r : GenerateRequest} {o : GenerateOptions} {paths : List Path} {w v start : World}

/-! ### Plans -/

/-- What a call for the generation of use cases comes to: how to generate them, and from which
declaration files. -/
def GenerateRequest.plan (r : GenerateRequest) :
    Session (Except Ending (GenerateOptions × List Path)) := do
  match ← Settings.load r.config with
  | .error problem => return .error (.badSettings problem)
  | .ok settings =>
    match ← collectDeclarations r.paths with
    | .error failure => return .error (.failed failure)
    | .ok declarations =>
      let project ← projectName r.project r.pubspec settings.fallbackPackage
      return .ok (r.options settings project, declarations)

theorem onlyLogs_load (path : Path) : OnlyLogs (Settings.load path) := by
  refine (onlyLogs_pathExists path).bind fun isThere => ?_
  split
  · refine (onlyLogs_log _).bind fun _ => (onlyLogs_readText path).bind fun source? => ?_
    split <;> exact onlyLogs_pure _
  · exact (onlyLogs_log _).bind fun _ => onlyLogs_pure _

/-- A call comes to its plan, and then to what its ending or its generation says. -/
theorem runGenerate_eq (r : GenerateRequest) (w : World) :
    (runGenerate r : Session Outcome) w =
      match r.plan w with
      | (.error ending, stopped) => (Outcome.silent ending, stopped)
      | (.ok (o, paths), start) =>
        let generated := (generate o paths : Session GenerationReport) start
        (⟨printAll generated.1.events, endingOf generated.1 paths.length⟩, generated.2) := by
  rw [runGenerate, session_bind, GenerateRequest.plan, session_bind]
  rcases (Settings.load r.config : Session (Except Problem Config)) w with ⟨problem | settings, u⟩
  · rfl
  · simp only
    rw [session_bind, session_bind]
    rcases (collectDeclarations r.paths : Session (Except Failure (List Path))) u with
      ⟨failure | declarations, x⟩ <;> rfl

theorem run_of_plan (h : r.plan w = (.ok (o, paths), start)) :
    (runGenerate r : Session Outcome) w =
      let generated := (generate o paths : Session GenerationReport) start
      (⟨printAll generated.1.events, endingOf generated.1 paths.length⟩, generated.2) := by
  rw [runGenerate_eq, h]

theorem run_of_plan_error {ending : Ending} (h : r.plan w = (.error ending, start)) :
    (runGenerate r : Session Outcome) w = (Outcome.silent ending, start) := by
  rw [runGenerate_eq, h]

/-- A plan keeps what the call says about replacing and previewing files, and all paths of the call
lead somewhere. -/
theorem plan_cases (h : r.plan w = (.ok (o, paths), start)) :
    (o.dryRun = r.dryRun ∧ o.force = r.force) ∧
      ∀ path ∈ r.paths, ∃ kind, w.kind? path = some kind := by
  obtain ⟨loaded, u, hload, h⟩ := session_bind_cases h
  cases loaded with
  | error problem => cases h
  | ok settings =>
      obtain ⟨collected, x, hcollect, h⟩ := session_bind_cases h
      cases collected with
      | error failure => cases h
      | ok declarations =>
          obtain ⟨project, y, -, h⟩ := session_bind_cases h
          cases h
          refine ⟨⟨rfl, rfl⟩, fun path hpath => ?_⟩
          obtain ⟨kind, hkind⟩ :=
            kind?_of_collectDeclarations (congrArg Prod.fst hcollect) path hpath
          exact ⟨kind, (((onlyLogs_load r.config).still hload).kind? path).symm.trans hkind⟩

/-- A call without a plan fails. -/
theorem exitCode_of_plan_error {ending : Ending} (h : r.plan w = (.error ending, start)) :
    ending.exitCode = 1 := by
  obtain ⟨loaded, u, -, h⟩ := session_bind_cases h
  cases loaded with
  | error problem => cases h; rfl
  | ok settings =>
      obtain ⟨collected, x, -, h⟩ := session_bind_cases h
      cases collected with
      | error failure => cases h; rfl
      | ok declarations => cases h

/-- A run that ends well had a plan. -/
theorem plan_of_exitCode (h : ((runGenerate r : Session Outcome) w).1.ending.exitCode = 0) :
    ∃ o paths start, r.plan w = (.ok (o, paths), start) := by
  rw [runGenerate_eq] at h
  rcases hplan : r.plan w with ⟨ending | ⟨o, paths⟩, start⟩
  · rw [hplan] at h
    exact absurd ((exitCode_of_plan_error hplan).symm.trans h) (by decide)
  · exact ⟨o, paths, start, rfl⟩

theorem alike_load {path : Path}
    (hchanges : w.Changes (fun location => w.tree.find? location = none) v)
    (hkind : v.kind? path = w.kind? path) : Alike w v (Settings.load path) := by
  refine (alike_pathExists hkind).bind ?_
  split
  · rename_i hthere
    obtain ⟨kind, hkind⟩ := Option.isSome_iff_exists.mp
      (show (w.kind? path).isSome = true from hthere)
    refine (alike_log _).bind ((alike_readText (hchanges.read hkind)).bind ?_)
    split <;> exact alike_pure _
  · exact (alike_log _).bind (alike_pure _)

/-- The plan is the same in a world in which nothing was replaced and no declaration file is new. -/
theorem alike_plan (hchanges : w.Changes (fun location => w.tree.find? location = none) v)
    (hconfig : v.kind? r.config = w.kind? r.config)
    (hpubspec : v.kind? r.pubspec = w.kind? r.pubspec)
    (hkinds : ∀ path ∈ r.paths, ∃ kind, w.kind? path = some kind)
    (hnew : ∀ place content, isCollected w r.paths place = true →
      v.tree.find? place = some (.file content) → w.tree.find? place ≠ none) :
    Alike w v r.plan := by
  refine (alike_load hchanges hconfig).bind ?_
  split
  · exact alike_pure _
  · refine (alike_collectDeclarations hchanges hkinds hnew fun path hpath => hpath).bind ?_
    split
    · exact alike_pure _
    · exact (alike_projectName hchanges r.project _ hpubspec).bind (alike_pure _)

/-- A plan only logs, and it is found again at once. -/
theorem still_of_plan (h : r.plan w = (.ok (o, paths), start)) :
    w.Still start ∧ (r.plan start).1 = .ok (o, paths) := by
  obtain ⟨-, hkinds⟩ := plan_cases h
  have hsame : Alike w w r.plan := alike_plan (World.Changes.refl w) rfl rfl hkinds
    fun place content _ hfile => by rw [hfile]; exact Option.some_ne_none _
  obtain ⟨-, hstill, -⟩ := hsame w w (.refl w) (.refl w)
  rw [h] at hstill
  obtain ⟨hvalue, -, -⟩ := hsame start w hstill (.refl w)
  refine ⟨hstill, ?_⟩
  rw [← hvalue, h]

/-- The plan is found again after a run that only added files, none of them a declaration file. -/
theorem plan_again {tries : List Try} (h : r.plan w = (.ok (o, paths), start))
    (hadds : Adds start tries v)
    (hasked : (tries.map Try.file).Sublist (requestedFiles o paths start))
    (hlinks : ∀ s ∈ requests o paths start, s.AvoidsDeclarations o start r.paths)
    (hconfig : w.kind? r.config = none → v.kind? r.config = none)
    (hpubspec : w.kind? r.pubspec = none → v.kind? r.pubspec = none) :
    r.plan v = (.ok (o, paths), (r.plan v).2) ∧ v.Still (r.plan v).2 := by
  obtain ⟨-, hkinds⟩ := plan_cases h
  obtain ⟨hstill, hvalue⟩ := still_of_plan h
  have hsame : ∀ path, (w.kind? path = none → v.kind? path = none) →
      v.kind? path = start.kind? path := by
    intro path hnothing
    rw [hstill.kind?]
    cases hkind : w.kind? path with
    | none => exact hnothing hkind
    | some kind => exact hadds.preserves.kind? ((hstill.kind? path).trans hkind)
  have halike : Alike start v r.plan := by
    refine alike_plan hadds.preserves (hsame _ hconfig) (hsame _ hpubspec) (fun path hpath => ?_)
      fun place content hcollected hfile => hadds.collects_old hasked hlinks hcollected hfile
    rw [hstill.kind?]
    exact hkinds path hpath
  obtain ⟨hvalue', -, hrestart⟩ := halike start v (.refl start) (.refl v)
  exact ⟨Prod.ext (hvalue'.trans hvalue) rfl, hrestart⟩

/-! ### Running twice -/

/-- What a command line does. -/
def once (args : List String) (w : World) : Outcome × World :=
  (run args : Session Outcome) w

/-- What the same command line does afterwards. -/
def again (args : List String) (w : World) : Outcome × World :=
  once args (once args w).2

theorem run_of_parse {args : List String} {i : Invocation} (hparse : parse args = .ok i)
    (hcommand : i.command = .generate r) : once args w = (runGenerate r : Session Outcome) w := by
  rw [once, run, hparse]
  simp only [hcommand]
  rfl

theorem failures_of_exitCode {report : GenerationReport} {total : Nat}
    (h : (endingOf report total).exitCode = 0) : report.failures = [] := by
  unfold endingOf at h
  split at h
  · cases h
  · rename_i hnone
    simpa [GenerationReport.hasFailures] using hnone

theorem exitCode_asSkipped {report : GenerationReport} {total : Nat}
    (h : report.failures = []) : (endingOf report.asSkipped total).exitCode = 0 := by
  rw [endingOf, if_neg]
  · rfl
  · simp [GenerationReport.hasFailures, GenerationReport.asSkipped, h]

/-- The output directory of a plan goes up only from what exists. -/
def GenerateRequest.KeepsToDirectories (r : GenerateRequest) (w : World) : Prop :=
  ∀ plan ∈ (r.plan w).1.toOption, ∀ folder ∈ plan.1.output, Grounded w.tree w.cwd folder

/-- No link in the place of a use case of a plan leads to where a declaration file would be
collected. -/
def GenerateRequest.AvoidsDeclarations (r : GenerateRequest) (w : World) : Prop :=
  ∀ plan ∈ (r.plan w).1.toOption, ∀ s ∈ requests plan.1 plan.2 (r.plan w).2,
    s.AvoidsDeclarations plan.1 (r.plan w).2 r.paths

instance (r : GenerateRequest) (w : World) : Decidable (r.KeepsToDirectories w) :=
  inferInstanceAs (Decidable (∀ plan ∈ (r.plan w).1.toOption, ∀ folder ∈ plan.1.output,
    Grounded w.tree w.cwd folder))

instance (r : GenerateRequest) (w : World) : Decidable (r.AvoidsDeclarations w) :=
  inferInstanceAs (Decidable (∀ plan ∈ (r.plan w).1.toOption,
    ∀ s ∈ requests plan.1 plan.2 (r.plan w).2, s.AvoidsDeclarations plan.1 (r.plan w).2 r.paths))

/-- **Generating use cases twice is like generating them once.**  Suppose that a call without force
and without a dry run ends well, that the settings and the pubspec are there afterwards only if they
were there before, that the output directory goes up only from what exists, and that no link in the
place of a use case leads to where a declaration file would be collected.  Then the second run finds
the same declaration files, ends well, reports every unit of the first run as skipped, and changes
nothing. -/
theorem regeneration_changes_nothing {args : List String} {i : Invocation}
    (hparse : parse args = .ok i) (hcommand : i.command = .generate r)
    (hreal : r.dryRun = false) (hkeep : r.force = false)
    (hdone : (once args w).1.ending.exitCode = 0)
    (hconfig : w.kind? r.config = none → (once args w).2.kind? r.config = none)
    (hpubspec : w.kind? r.pubspec = none → (once args w).2.kind? r.pubspec = none)
    (houtput : r.KeepsToDirectories w) (hlinks : r.AvoidsDeclarations w) :
    ∃ o paths start restart,
      r.plan w = (.ok (o, paths), start) ∧
      r.plan (once args w).2 = (.ok (o, paths), restart) ∧
      let report := ((generate o paths : Session GenerationReport) start).1
      ((generate o paths : Session GenerationReport) restart).1 = report.asSkipped ∧
      (once args w).1.printed = printAll report.events ∧
      (again args w).1.printed = printAll report.asSkipped.events ∧
      (again args w).1.ending.exitCode = 0 ∧
      (again args w).2.tree = (once args w).2.tree ∧
      (again args w).2.cwd = (once args w).2.cwd := by
  obtain ⟨o, paths, start, hplan⟩ : ∃ o paths start, r.plan w = (.ok (o, paths), start) := by
    rw [run_of_parse hparse hcommand] at hdone
    exact plan_of_exitCode hdone
  obtain ⟨⟨hdry, hforce⟩, -⟩ := plan_cases hplan
  rw [hreal] at hdry
  rw [hkeep] at hforce
  obtain ⟨hstill, -⟩ := still_of_plan hplan
  replace houtput : ∀ folder ∈ o.output, Grounded start.tree start.cwd folder := by
    rw [hstill.tree, hstill.cwd]
    exact houtput (o, paths) (by rw [hplan]; rfl)
  replace hlinks : ∀ s ∈ requests o paths start, s.AvoidsDeclarations o start r.paths := by
    have hall := hlinks (o, paths) (by rw [hplan]; rfl)
    rw [hplan] at hall
    exact hall
  -- the first run
  obtain ⟨⟨report, after⟩, hgenerated⟩ :
      ∃ result, (generate o paths : Session GenerationReport) start = result := ⟨_, rfl⟩
  have hfirst : once args w = (⟨printAll report.events, endingOf report paths.length⟩, after) := by
    rw [run_of_parse hparse hcommand, run_of_plan hplan, hgenerated]
  rw [hfirst] at hdone hconfig hpubspec
  have hfailures : report.failures = [] := failures_of_exitCode hdone
  obtain ⟨trail, -, hasked, hadds⟩ := adds_of_generate o paths start hforce houtput
  rw [hgenerated] at hadds
  -- the second run
  obtain ⟨hplan', hrestart⟩ := plan_again hplan hadds hasked hlinks hconfig hpubspec
  have hrepeats := generate_repeats paths hdry hforce houtput (x := (r.plan after).2)
  rw [hgenerated] at hrepeats
  obtain ⟨y, hregenerated, hy⟩ := hrepeats hfailures hrestart
  have hagain : again args w =
      (⟨printAll report.asSkipped.events, endingOf report.asSkipped paths.length⟩, y) := by
    rw [again, hfirst, run_of_parse hparse hcommand, run_of_plan hplan', hregenerated]
  refine ⟨o, paths, start, (r.plan after).2, hplan, ?_⟩
  rw [hfirst, hagain, hgenerated, hregenerated]
  exact ⟨hplan', rfl, rfl, rfl, exitCode_asSkipped hfailures, hy.tree, hy.cwd⟩

/-! ### Runs that are repeated -/

/-- The interface of a repository with these methods. -/
def cartWith (methods : String) : ByteArray :=
  ("abstract class CartRepository \x7b\n" ++ methods ++ "\x7d\n").toUTF8

/-- The request of a command line that gives the paths, the output directory and the settings. -/
def requestOf (paths : List Path) (output : Option Path) (config : Path) : GenerateRequest :=
  ⟨paths, none, none, none, "pubspec.yaml", output, config, false, false⟩

/-- One use case was written by hand and is kept elsewhere; the place of the other one has a link
that leads nowhere. -/
def linkedCart : World :=
  worldOf
    [ ([], "lib", .directory),
      (["lib"], "cart_repository.dart",
        .file (cartWith "  Future<void> clear();\n  Future<int> total();\n")),
      (["lib"], "usecases", .directory), ([], "clear.dart", .file "by hand".toUTF8),
      (["lib", "usecases"], "clear_use_case.dart", .link "../../clear.dart"),
      (["lib", "usecases"], "total_use_case.dart", .link "../total.dart") ]

theorem regeneration_of_linkedCart :
    let args := ["generate", "lib"]
    let r := requestOf ["lib"] none "casegen.toml"
    let w := linkedCart
    (parse args = .ok ⟨.generate r, .warn⟩ ∧ r.dryRun = false ∧ r.force = false ∧
      (once args w).1.ending.exitCode = 0 ∧
      (w.kind? r.config = none → (once args w).2.kind? r.config = none) ∧
      (w.kind? r.pubspec = none → (once args w).2.kind? r.pubspec = none) ∧
      r.KeepsToDirectories w ∧ r.AvoidsDeclarations w) ∧
    ∃ o paths start restart,
      r.plan w = (.ok (o, paths), start) ∧
      r.plan (once args w).2 = (.ok (o, paths), restart) ∧
      let report := ((generate o paths : Session GenerationReport) start).1
      ((generate o paths : Session GenerationReport) restart).1 = report.asSkipped ∧
      (once args w).1.printed = printAll report.events ∧
      (again args w).1.printed = printAll report.asSkipped.events ∧
      (again args w).1.ending.exitCode = 0 ∧
      (again args w).2.tree = (once args w).2.tree ∧
      (again args w).2.cwd = (once args w).2.cwd := by
  intro args r w
  have hparse : parse args = .ok ⟨.generate r, .warn⟩ := by decide +kernel
  have hfirst : (once args w).1.ending.exitCode = 0 ∧
      (once args w).2.kind? r.config = none ∧ (once args w).2.kind? r.pubspec = none := by
    decide +kernel
  have houtput : r.KeepsToDirectories w := by decide +kernel
  have hlinks : r.AvoidsDeclarations w := by decide +kernel
  obtain ⟨hdone, hconfig, hpubspec⟩ := hfirst
  exact ⟨⟨hparse, rfl, rfl, hdone, fun _ => hconfig, fun _ => hpubspec, houtput, hlinks⟩,
    regeneration_changes_nothing hparse rfl rfl rfl hdone (fun _ => hconfig)
      (fun _ => hpubspec) houtput hlinks⟩

/-! ### Runs that are not -/

/-- The path leads to nothing, or to what was there before. -/
def LeadsToOld (w v : World) (path : Path) : Prop :=
  ∀ location ∈ (match v.target path with | .found location => some location | _ => none),
    w.tree.find? location ≠ none

/-- The call generates use cases, and is told neither to replace files nor to preview them; it ends
well, and it makes neither the settings nor the pubspec. -/
def EndsWell (r : GenerateRequest) (args : List String) (w : World) : Prop :=
  parse args = .ok ⟨.generate r, .warn⟩ ∧ r.dryRun = false ∧ r.force = false ∧
    (once args w).1.ending.exitCode = 0 ∧
    ∀ path ∈ [r.config, r.pubspec], LeadsToOld w (once args w).2 path

instance (w v : World) (path : Path) : Decidable (LeadsToOld w v path) :=
  inferInstanceAs (Decidable (∀ location ∈
    (match v.target path with | .found location => some location | _ => none),
      w.tree.find? location ≠ none))

instance (r : GenerateRequest) (args : List String) (w : World) : Decidable (EndsWell r args w) :=
  inferInstanceAs (Decidable (parse args = .ok ⟨.generate r, .warn⟩ ∧ r.dryRun = false ∧
    r.force = false ∧ (once args w).1.ending.exitCode = 0 ∧
    ∀ path ∈ [r.config, r.pubspec], LeadsToOld w (once args w).2 path))

/-- A link in the place of a use case leads to where a declaration file would be collected. -/
def misleadingCart : World :=
  worldOf
    [ ([], "a_repository.dart", .file (cartWith "  Future<void> get();\n")),
      ([], "more", .directory), ([], "usecases", .directory),
      (["usecases"], "get_use_case.dart", .link "../more/b_repository.dart") ]

/-- The settings name an output directory. -/
def settledCart : World :=
  worldOf
    [ ([], "a_repository.dart", .file (cartWith "  Future<void> get();\n")),
      ([], "casegen.toml", .file "[generator]\noutput = \"out\"\n".toUTF8) ]

/-- The declaration file is named like its use case. -/
def misnamedCart : World :=
  worldOf [([], "get_use_case.dart", .file (cartWith "  Future<void> get();\n"))]

/-- Three calls that do something else when they are made again.  The first one makes a use case that
is then collected as a declaration file; the second one makes the directory through which its
settings are found; and the third one replaces its own declaration file. -/
theorem regeneration_differs :
    (EndsWell (requestOf ["a_repository.dart", "more"] none "casegen.toml")
        ["generate", "a_repository.dart", "more"] misleadingCart ∧
      (again ["generate", "a_repository.dart", "more"] misleadingCart).1.ending.exitCode = 1) ∧
    (EndsWell (requestOf ["a_repository.dart"] none "usecases/../casegen.toml")
        ["generate", "-c", "usecases/../casegen.toml", "a_repository.dart"] settledCart ∧
      (once ["generate", "-c", "usecases/../casegen.toml", "a_repository.dart"] settledCart).2.kind?
        "out/get_use_case.dart" = none ∧
      (again ["generate", "-c", "usecases/../casegen.toml", "a_repository.dart"] settledCart).2.kind?
        "out/get_use_case.dart" = some .file) ∧
    (EndsWell (requestOf ["get_use_case.dart"] (some "new/..") "casegen.toml")
        ["generate", "-o", "new/..", "get_use_case.dart"] misnamedCart ∧
      (again ["generate", "-o", "new/..", "get_use_case.dart"] misnamedCart).1.ending.exitCode = 1) := by
  refine ⟨?link, ?settings, ?output⟩
  case link => decide +kernel
  case settings => decide +kernel
  case output => decide +kernel

end UseCases.CommandLine
