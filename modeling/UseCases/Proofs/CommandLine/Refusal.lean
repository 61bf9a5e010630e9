/-
Calls that are refused before anything is generated.

A call comes to a plan before its first use case is generated, and all that can be wrong with a call
as a whole is wrong with its plan: a settings file that is there and is no good, or a path that leads
to nothing.  Making a plan changes nothing but the log, so such a call leaves the tree as it was.

After that no failure stops the run, and what the exit code tells is whether a turn failed.
-/
import UseCases.Proofs.CommandLine.Regeneration
import UseCases.Proofs.Project.Turns

namespace UseCases.CommandLine

open Files Generation Project Report Settings

variable {r : GenerateRequest} {o : GenerateOptions} {paths : List Path} {w v start : World}
  {path : Path} {problem : Problem}

/-! ### Settings -/

/-- The text of a file, or why there is none. -/
def textAt (w : World) (path : Path) : Except OsError String :=
  ((readText path : Session (Except OsError String)) w).1

/-- There is a settings file, and this is wrong with it. -/
inductive SettingsFault (w : World) (path : Path) : Problem → Prop where
  /-- It cannot be read. -/
  | unreadable {e : OsError} (hthere : w.kind? path ≠ none) (hread : textAt w path = .error e) :
    SettingsFault w path (.unreadable path e)
  /-- It cannot be parsed. -/
  | malformed {text : String} (hthere : w.kind? path ≠ none) (hread : textAt w path = .ok text)
      (hparse : (Toml.parse? text).bind Config.ofEntries? = none) :
    SettingsFault w path (.malformed ⟨text, path⟩)
  /-- A value in it is not allowed. -/
  | invalid {text : String} {settings : Config} {problem : Problem} (hthere : w.kind? path ≠ none)
      (hread : textAt w path = .ok text)
      (hparse : (Toml.parse? text).bind Config.ofEntries? = some settings)
      (hcheck : settings.check ⟨text, path⟩ = .error problem) :
    SettingsFault w path problem

theorem load_of_missing (h : w.kind? path = none) :
    ((Settings.load path : Session (Except Problem Config)) w).1 = .ok .default := by
  have hhost : (Host.kind? path : Session (Option Kind)) w = (none, w) := congrArg (·, w) h
  rw [Settings.load, session_bind, pathExists, session_bind, hhost]
  rfl

/-- A settings file that is there is read, whatever was logged before. -/
theorem load_of_kind? (h : w.kind? path ≠ none) :
    ((Settings.load path : Session (Except Problem Config)) w).1 =
      match textAt w path with
      | .error e => .error (.unreadable path e)
      | .ok text => Config.read ⟨text, path⟩ := by
  obtain ⟨kind, hkind⟩ := Option.ne_none_iff_exists'.mp h
  have hhost : (Host.kind? path : Session (Option Kind)) w = (some kind, w) :=
    congrArg (·, w) hkind
  have hlogged : ∀ record, ((readText path : Session (Except OsError String)) (w.addLog record)).1 =
      textAt w path := fun record => (logBlind_readText path w (w.addLog record) ⟨rfl, rfl⟩).1
  rw [Settings.load, session_bind, pathExists, session_bind, hhost]
  show ((Settings.read path : Session (Except Problem Config)) (w.addLog _)).1 = _
  rw [Settings.read, session_bind, ← hlogged ⟨.debug, "loading config from " ++ path⟩]
  cases (readText path : Session (Except OsError String)) _ |>.1 <;> rfl

theorem read_eq_error {source : Source} (h : Config.read source = .error problem) :
    ((Toml.parse? source.text).bind Config.ofEntries? = none ∧ problem = .malformed source) ∨
      ∃ settings, (Toml.parse? source.text).bind Config.ofEntries? = some settings ∧
        settings.check source = .error problem := by
  unfold Config.read at h
  split at h
  · rename_i hparse
    cases h
    exact Or.inl ⟨hparse, rfl⟩
  · rename_i settings hparse
    refine Or.inr ⟨settings, hparse, ?_⟩
    cases hcheck : settings.check source with
    | error fault =>
        rw [hcheck] at h
        cases h
        rfl
    | ok _ =>
        rw [hcheck] at h
        cases h

/-- **Settings are refused for a fault of their file, and for nothing else.** -/
theorem load_eq_error_iff :
    ((Settings.load path : Session (Except Problem Config)) w).1 = .error problem ↔
      SettingsFault w path problem := by
  constructor
  · intro h
    cases hkind : w.kind? path with
    | none =>
        rw [load_of_missing hkind] at h
        cases h
    | some kind =>
        have hthere : w.kind? path ≠ none := by simp [hkind]
        rw [load_of_kind? hthere] at h
        cases hread : textAt w path with
        | error e =>
            rw [hread] at h
            cases h
            exact .unreadable hthere hread
        | ok text =>
            rw [hread] at h
            rcases read_eq_error h with ⟨hparse, rfl⟩ | ⟨settings, hparse, hcheck⟩
            · exact .malformed hthere hread hparse
            · exact .invalid hthere hread hparse hcheck
  · intro h
    cases h with
    | unreadable hthere hread => rw [load_of_kind? hthere, hread]
    | malformed hthere hread hparse =>
        rw [load_of_kind? hthere, hread]
        simp only [Config.read, hparse]
    | invalid hthere hread hparse hcheck =>
        rw [load_of_kind? hthere, hread]
        simp only [Config.read, hparse, hcheck]
        rfl

/-! ### Plans that are refused -/

/-- Something is wrong with the call as a whole: with its settings file, or with one of its paths. -/
def GenerateRequest.IsRefused (r : GenerateRequest) (w : World) : Prop :=
  (∃ problem, SettingsFault w r.config problem) ∨ ∃ path ∈ r.paths, w.kind? path = none

theorem onlyLogs_plan (r : GenerateRequest) : OnlyLogs r.plan := by
  refine (onlyLogs_load r.config).bind fun loaded => ?_
  split
  · exact onlyLogs_pure _
  · refine (onlyLogs_collectDeclarations r.paths).bind fun collected => ?_
    split
    · exact onlyLogs_pure _
    · exact (onlyLogs_projectName r.project r.pubspec _).bind fun _ => onlyLogs_pure _

theorem plan_of_fault (h : SettingsFault w r.config problem) :
    (r.plan w).1 = .error (.badSettings problem) := by
  rw [GenerateRequest.plan, session_bind, load_eq_error_iff.mpr h]
  rfl

/-- With good settings a plan fails for the first path that leads to nothing. -/
theorem plan_of_missing {before after : List Path} {settings : Config}
    (hload : ((Settings.load r.config : Session (Except Problem Config)) w).1 = .ok settings)
    (hpaths : r.paths = before ++ path :: after) (hbefore : ∀ p ∈ before, w.kind? p ≠ none)
    (hmissing : w.kind? path = none) : (r.plan w).1 = .error (.failed (.missing path)) := by
  have hstill := onlyLogs_load r.config w
  rw [GenerateRequest.plan, session_bind, hload]
  simp only
  rw [session_bind, hpaths, collectDeclarations_missing
    (fun p hp => by rw [hstill.kind?]; exact hbefore p hp) ((hstill.kind? path).trans hmissing)]
  rfl

/-- A call that nothing is wrong with has a plan, for the declaration files of all its paths. -/
theorem plan_of_not_isRefused (h : ¬ r.IsRefused w) :
    ∃ o, (r.plan w).1 = .ok (o, r.paths.flatMap (declarationsBelow w)) := by
  have hthere : ∀ p ∈ r.paths, w.kind? p ≠ none := fun p hp hnone => h (Or.inr ⟨p, hp, hnone⟩)
  cases hload : ((Settings.load r.config : Session (Except Problem Config)) w).1 with
  | error problem => exact absurd (Or.inl ⟨problem, load_eq_error_iff.mp hload⟩) h
  | ok settings =>
      have hstill := onlyLogs_load r.config w
      have hcollect := collectDeclarations_eq fun p hp => by
        rw [hstill.kind?]
        exact hthere p hp
      rw [funext (declarationsBelow_still hstill)] at hcollect
      rw [GenerateRequest.plan, session_bind, hload]
      simp only
      rw [session_bind, hcollect]
      exact ⟨_, rfl⟩

/-- **The plan of a call fails if something is wrong with the call**, and says what it is. -/
theorem plan_of_isRefused (h : r.IsRefused w) :
    (∃ problem, SettingsFault w r.config problem ∧ (r.plan w).1 = .error (.badSettings problem)) ∨
      ∃ path ∈ r.paths, w.kind? path = none ∧ (r.plan w).1 = .error (.failed (.missing path)) := by
  cases hload : ((Settings.load r.config : Session (Except Problem Config)) w).1 with
  | error problem =>
      have hfault := load_eq_error_iff.mp hload
      exact Or.inl ⟨problem, hfault, plan_of_fault hfault⟩
  | ok settings =>
      have hmissing : ∃ path ∈ r.paths, w.kind? path = none := by
        refine h.resolve_left ?_
        rintro ⟨problem, hfault⟩
        cases hload.symm.trans (load_eq_error_iff.mpr hfault)
      obtain ⟨path, hfirst⟩ : ∃ path, r.paths.find? (fun p => (w.kind? p).isNone) = some path :=
        Option.isSome_iff_exists.mp (by simpa using hmissing)
      obtain ⟨hnone, before, after, hpaths, hbefore⟩ := List.find?_eq_some_iff_append.mp hfirst
      replace hnone : w.kind? path = none := by simpa using hnone
      refine Or.inr ⟨path, by rw [hpaths]; simp, hnone, plan_of_missing hload hpaths ?_ hnone⟩
      intro p hp hpnone
      simpa [hpnone] using hbefore p hp

theorem isRefused_iff : r.IsRefused w ↔ (r.plan w).1.toOption = none := by
  constructor
  · intro h
    rcases plan_of_isRefused h with ⟨_, _, hplan⟩ | ⟨_, _, _, hplan⟩ <;> rw [hplan] <;> rfl
  · intro hnone
    by_contra h
    obtain ⟨o, hplan⟩ := plan_of_not_isRefused h
    rw [hplan] at hnone
    cases hnone

instance (r : GenerateRequest) (w : World) : Decidable (r.IsRefused w) :=
  decidable_of_iff _ isRefused_iff.symm

/-! ### Runs -/

theorem exitCode_endingOf {report : GenerationReport} {total : Nat} :
    (endingOf report total).exitCode = if report.hasFailures then 1 else 0 := by
  unfold endingOf
  split <;> rfl

/-- **A call for use cases fails before it writes, or not as a whole.**  If the settings file is there
and cannot be read, parsed or allowed, or if one of the paths leads to nothing, the run comes to no
plan: nothing is generated or printed, the tree is as it was, and the exit code is 1.  In all other
cases there is a plan for the declaration files of all paths, and the exit code is 1 if the turn of
one of them fails and 0 if none does. -/
theorem refused_or_exitCode_of_turns {args : List String} {i : Invocation}
    (hparse : parse args = .ok i) (hcommand : i.command = .generate r) :
    (r.IsRefused w →
      w.Still (once args w).2 ∧
      ∃ ending, r.plan w = (.error ending, (once args w).2) ∧
        (once args w).1 = Outcome.silent ending ∧ ending.exitCode = 1 ∧
        ((∃ problem, SettingsFault w r.config problem ∧ ending = .badSettings problem) ∨
          ∃ path ∈ r.paths, w.kind? path = none ∧ ending = .failed (.missing path))) ∧
    (¬ r.IsRefused w →
      let declarations := r.paths.flatMap (declarationsBelow w)
      ∃ o start, r.plan w = (.ok (o, declarations), start) ∧ w.Still start ∧
        (once args w).1.printed =
          printAll ((generate o declarations : Session GenerationReport) start).1.events ∧
        ((once args w).1.ending.exitCode = 1 ↔
          ∃ t ∈ turns o declarations start, ∃ failure, t.result o = .error failure) ∧
        ((once args w).1.ending.exitCode = 0 ↔
          ∀ t ∈ turns o declarations start, ∃ report, t.result o = .ok report)) := by
  rw [run_of_parse hparse hcommand]
  constructor
  · intro hrefused
    have hends : ∃ ending, (r.plan w).1 = .error ending ∧ ending.exitCode = 1 ∧
        ((∃ problem, SettingsFault w r.config problem ∧ ending = .badSettings problem) ∨
          ∃ path ∈ r.paths, w.kind? path = none ∧ ending = .failed (.missing path)) := by
      rcases plan_of_isRefused hrefused with ⟨problem, hfault, hplan⟩ | ⟨path, hpath, hnone, hplan⟩
      · exact ⟨_, hplan, rfl, Or.inl ⟨problem, hfault, rfl⟩⟩
      · exact ⟨_, hplan, rfl, Or.inr ⟨path, hpath, hnone, rfl⟩⟩
    obtain ⟨ending, hplan, hcode, hreason⟩ := hends
    replace hplan : r.plan w = (.error ending, (r.plan w).2) := Prod.ext hplan rfl
    rw [run_of_plan_error hplan]
    exact ⟨onlyLogs_plan r w, ending, hplan, rfl, hcode, hreason⟩
  · intro hgood declarations
    obtain ⟨o, hvalue⟩ := plan_of_not_isRefused hgood
    obtain ⟨start, hplan⟩ : ∃ start, r.plan w = (.ok (o, declarations), start) :=
      ⟨_, Prod.ext hvalue rfl⟩
    have hfailed := hasFailures_generate o declarations start
    have hnone : (∀ t ∈ turns o declarations start, ∃ report, t.result o = .ok report) ↔
        ¬ ∃ t ∈ turns o declarations start, ∃ failure, t.result o = .error failure := by
      simp only [not_exists, not_and]
      refine forall₂_congr fun t _ => ?_
      cases t.result o <;> simp
    refine ⟨o, start, hplan, (still_of_plan hplan).1, ?_⟩
    rw [run_of_plan hplan, hnone, ← hfailed]
    refine ⟨rfl, ?one, ?zero⟩
    case one =>
      rw [exitCode_endingOf]
      split <;> simp_all
    case zero =>
      rw [exitCode_endingOf]
      split <;> simp_all

/-- A path that leads to nothing stands among others and all the options, and a file without a
repository class is refused in its turn. -/
theorem refusal_of_gone_path :
    let w := worldOf
      [([], "a_repository.dart", .file (cartWith "  Future<void> get();\n")),
        ([], "b_repository.dart", .file "Future<void> put();\n".toUTF8)]
    let refused := ["generate", "a_repository.dart", "gone", "-f", "-o", "out", "b_repository.dart"]
    let failing := ["generate", "a_repository.dart", "-f", "-o", "out", "b_repository.dart"]
    let request (paths : List Path) : GenerateRequest :=
      { requestOf paths (some "out") "casegen.toml" with force := true }
    let r := request ["a_repository.dart", "gone", "b_repository.dart"]
    let s := request ["a_repository.dart", "b_repository.dart"]
    (parse refused = .ok ⟨.generate r, .warn⟩ ∧ r.IsRefused w ∧
      w.Still (once refused w).2 ∧ (once refused w).1.ending.exitCode = 1) ∧
    (parse failing = .ok ⟨.generate s, .warn⟩ ∧ ¬ s.IsRefused w ∧
      (once failing w).1.ending.exitCode = 1 ∧
      ∃ o start, ∃ t ∈ turns o (s.paths.flatMap (declarationsBelow w)) start,
        ∃ failure, t.result o = .error failure) := by
  intro w refused failing request r s
  have hparse : parse refused = .ok ⟨.generate r, .warn⟩ := by decide +kernel
  have hparse' : parse failing = .ok ⟨.generate s, .warn⟩ := by decide +kernel
  have hrefused : r.IsRefused w := by decide +kernel
  have hgood : ¬ s.IsRefused w := by decide +kernel
  have hcode : (once failing w).1.ending.exitCode = 1 := by decide +kernel
  obtain ⟨hstill, ending, -, hsilent, hone, -⟩ :=
    (refused_or_exitCode_of_turns (w := w) hparse rfl).1 hrefused
  obtain ⟨o, start, -, -, -, hfailed, -⟩ :=
    (refused_or_exitCode_of_turns (w := w) hparse' rfl).2 hgood
  refine ⟨⟨hparse, hrefused, hstill, ?_⟩, hparse', hgood, hcode, o, start, hfailed.mp hcode⟩
  rw [hsilent]
  exact hone

end UseCases.CommandLine
