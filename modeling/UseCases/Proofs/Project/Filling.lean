/-
Filling places.

Where no link stands, a file that is written goes to its place, whatever else was done before.  Files
that are written one after the other fill their places: each place has the content of the last file
that went there, and there is nothing new but these files and directories on the way to them.
-/
import UseCases.Proofs.Files.Building
import UseCases.Proofs.Project.Request
import UseCases.Proofs.Project.Turns

namespace UseCases.Project

open Files Report

variable {f : OutputFile} {files more : List OutputFile} {w u v : World} {cwd location : Location}
  {o : GenerateOptions} {path : Path} {touched : Location → Prop}

namespace OutputFile

/-- Where the file goes, if no link stands on the way. -/
def place (cwd : Location) (f : OutputFile) : Location :=
  f.path.place cwd

/-! ### Writing one file -/

theorem buildsTo_prepare (hup : ".." ∉ f.path.steps) : BuildsTo cwd (f.place cwd) f.prepare := by
  refine holds_prepare composes_buildsTo fun parent hparent => ?_
  obtain ⟨hstart, hsteps⟩ := parent?_steps hparent
  exact buildsTo_makeDirectories (fun hmem => hup (hsteps.subset hmem))
    (place_prefix_of_steps hstart hsteps)

theorem buildsTo_store (hup : ".." ∉ f.path.steps) : BuildsTo cwd (f.place cwd) f.store :=
  holds_store composes_buildsTo (buildsTo_prepare hup) (buildsTo_write hup _)

/-- The file exists and is to be left alone. -/
def keeps (w : World) (f : OutputFile) : Bool :=
  match f.overwrite with
  | .always => false
  | .ifMissing => (w.kind? f.path).isSome

/-- What becomes of the file, if writing it does not fail. -/
def fate (w : World) (f : OutputFile) : Written :=
  if f.keeps w then .skipped else .written

theorem isKept_eq (f : OutputFile) (w : World) : (f.isKept : Session Bool) w = (f.keeps w, w) := by
  unfold isKept keeps
  cases f.overwrite <;> rfl

theorem write_of_keeps (h : f.keeps w = true) :
    (f.write : Session (Except Failure Written)) w =
      (.ok .skipped, w.addLog ⟨.debug, "skipping existing file " ++ f.path⟩) := by
  rw [write, session_bind, isKept_eq, h]
  rfl

theorem write_of_store {result : Except Failure Unit} (h : f.keeps w = false)
    (hstore : (f.store : Session (Except Failure Unit)) w = (result, v)) :
    ∃ x, v.Still x ∧ (f.write : Session (Except Failure Written)) w =
      (result.map fun _ => .written, x) := by
  rw [write, session_bind, isKept_eq, h]
  simp only [Bool.false_eq_true, if_false]
  rw [session_bind, hstore]
  cases result with
  | error failure => exact ⟨v, World.Still.refl v, rfl⟩
  | ok _ => exact ⟨v.addLog ⟨.info, "wrote " ++ f.path⟩, ⟨rfl, rfl⟩, rfl⟩

theorem buildsTo_outputFile_write (hup : ".." ∉ f.path.steps) :
    BuildsTo cwd (f.place cwd) f.write :=
  holds_write composes_buildsTo (onlyLogs_kind? _).buildsTo
    (fun record => (onlyLogs_log record).buildsTo) (buildsTo_store hup)

end OutputFile

/-! ### Filled places -/

/-- The content of the file, if it goes to the location. -/
def contentAt? (cwd location : Location) (f : OutputFile) : Option String :=
  if f.place cwd = location then some f.content else none

/-- The content of the last of the files that go to a location. -/
def lastContent? (cwd : Location) (files : List OutputFile) (location : Location) : Option String :=
  (files.filterMap (contentAt? cwd location)).getLast?

theorem lastContent?_append :
    lastContent? cwd (files ++ more) location =
      (lastContent? cwd more location).or (lastContent? cwd files location) := by
  rw [lastContent?, List.filterMap_append, List.getLast?_append]
  rfl

theorem place_ne_of_lastContent? (h : lastContent? cwd files location = none) :
    ∀ f ∈ files, f.place cwd ≠ location := by
  rw [lastContent?, List.getLast?_eq_none_iff, List.filterMap_eq_nil_iff] at h
  intro f hf hplace
  have hnone := h f hf
  rw [contentAt?, if_pos hplace] at hnone
  cases hnone

/-- A file that goes to the location. -/
def GoesTo (cwd : Location) (files : List OutputFile) (location : Location) : Prop :=
  ∃ f ∈ files, f.place cwd = location

/-- The second world is the first one with the files written one after the other. -/
structure Filled (files : List OutputFile) (w v : World) : Prop where
  builds : w.Builds (GoesTo w.cwd files) v
  targets : ∀ f ∈ files, v.target f.path = .found (f.place w.cwd)
  contents : ∀ location content, lastContent? w.cwd files location = some content →
    v.tree.find? location = some (.file content.toUTF8)

namespace Filled

theorem of_still (h : w.Still v) : Filled [] w v where
  builds := h.builds
  targets f hf := by cases hf
  contents location content hlast := by cases hlast

theorem append (h : Filled files w u) (h' : Filled more u v) : Filled (files ++ more) w v where
  builds := by
    have hnext := h'.builds
    rw [h.builds.cwd] at hnext
    refine (h.builds.mono ?_).trans (hnext.mono ?_)
    · rintro location ⟨f, hf, hplace⟩
      exact ⟨f, List.mem_append_left _ hf, hplace⟩
    · rintro location ⟨f, hf, hplace⟩
      exact ⟨f, List.mem_append_right _ hf, hplace⟩
  targets f hf := by
    rcases List.mem_append.mp hf with hf | hf
    · exact h'.builds.toChanges.lookup (Or.inl rfl) (h.targets f hf)
    · rw [h'.targets f hf, h.builds.cwd]
  contents location content hlast := by
    have hnext := h'.builds
    have hcontents := h'.contents location
    rw [h.builds.cwd] at hnext hcontents
    rw [lastContent?_append] at hlast
    cases hmore : lastContent? w.cwd more location with
    | some other =>
        rw [hmore, Option.some_or] at hlast
        cases hlast
        exact hcontents content hmore
    | none =>
        rw [hmore, Option.none_or] at hlast
        have hfree : ¬GoesTo w.cwd more location := by
          rintro ⟨f, hf, hplace⟩
          exact place_ne_of_lastContent? hmore f hf hplace
        exact (hnext.files location hfree _).mpr (h.contents location content hlast)

theorem still (h : Filled files w u) (hstill : u.Still v) : Filled files w v := by
  have hwhole := h.append (of_still hstill)
  rwa [List.append_nil] at hwhole

theorem after (hstill : w.Still u) (h : Filled files u v) : Filled files w v :=
  (of_still hstill).append h

theorem linkless (h : Filled files w v) (hlinkless : w.tree.Linkless) : v.tree.Linkless :=
  h.builds.linkless hlinkless

end Filled

/-- What stands at a location after files were written, if `old` stood there before. -/
def filledAt? (cwd : Location) (files : List OutputFile) (old : Option Entry)
    (location : Location) : Option Entry :=
  match lastContent? cwd files location with
  | some content => some (.file content.toUTF8)
  | none => old.or (if ∃ f ∈ files, location <+: f.place cwd then some .directory else none)

/-- **What stands at each location in the end**: the last file that went there, or what stood there
before, or a directory on the way to a file. -/
theorem Filled.find?_eq (h : Filled files w v) (hlinkless : w.tree.Linkless) (location : Location) :
    v.tree.find? location = filledAt? w.cwd files (w.tree.find? location) location := by
  rw [filledAt?]
  cases hlast : lastContent? w.cwd files location with
  | some content => exact h.contents location content hlast
  | none =>
      have hne := place_ne_of_lastContent? hlast
      have hfree : ¬GoesTo w.cwd files location := fun ⟨f, hf, hplace⟩ => hne f hf hplace
      cases hold : w.tree.find? location with
      | some entry =>
          cases entry with
          | file content => exact (h.builds.files location hfree content).mpr hold
          | directory => exact h.builds.grown.directory location hold
          | link target => exact absurd hold (hlinkless location target)
      | none =>
          simp only [Option.none_or]
          split
          · rename_i hway
            obtain ⟨f, hf, hstem⟩ := hway
            cases hfile : lastContent? w.cwd files (f.place w.cwd) with
            | none => exact absurd rfl (place_ne_of_lastContent? hfile f hf)
            | some content =>
                exact Tree.find?_eq_some_directory
                  (Tree.isDirectory_on_way (h.contents _ content hfile) hstem (hne f hf).symm)
          · rename_i hway
            by_contra hsome
            obtain ⟨_, ⟨f, hf, rfl⟩, hstem⟩ := h.builds.onTheWay location hold hsome
            exact hway ⟨f, hf, hstem⟩

/-- **A file whose writing does not fail meets its fate**, and fills its place if it is written. -/
theorem filled_of_write (hlinkless : w.tree.Linkless) (hup : ".." ∉ f.path.steps) {done : Written}
    (h : (f.write : Session (Except Failure Written)) w = (.ok done, v)) :
    done = f.fate w ∧ Filled (if f.keeps w then [] else [f]) w v := by
  rw [OutputFile.fate]
  cases hkeeps : f.keeps w with
  | true =>
      rw [OutputFile.write_of_keeps hkeeps] at h
      cases h
      exact ⟨rfl, .of_still ⟨rfl, rfl⟩⟩
  | false =>
      have hbuilds := OutputFile.buildsTo_outputFile_write hup w hlinkless rfl
      rw [h] at hbuilds
      have hwritten : done = .written := by
        cases hstore : (f.store : Session (Except Failure Unit)) w with
        | mk stored y =>
            obtain ⟨x, -, hwrite⟩ := OutputFile.write_of_store hkeeps hstore
            rw [h] at hwrite
            cases stored <;> cases hwrite
            rfl
      subst hwritten
      cases OutputFile.attempt_of_write h with
      | written there file changes =>
          obtain rfl := changes.place_of_target hlinkless hup there
          refine ⟨rfl, hbuilds.mono fun location hplace => ⟨f, by simp, hplace.symm⟩, ?_, ?_⟩
          · intro g hg
            rw [List.mem_singleton.mp hg]
            exact there
          · intro location content hlast
            rw [lastContent?, if_neg Bool.false_ne_true, List.filterMap_cons, contentAt?] at hlast
            by_cases hplace : f.place w.cwd = location
            · rw [if_pos hplace] at hlast
              cases hlast
              rw [← hplace]
              exact file
            · rw [if_neg hplace] at hlast
              cases hlast

/-! ### Writing files one after the other -/

/-- How a file is reported that was kept or written. -/
def settled (kept : OutputFile → Bool) (f : OutputFile) : UnitOutcome :=
  ⟨f.path, if kept f then .skipped else .written⟩

/-- The files that are not kept. -/
def unkept (kept : OutputFile → Bool) (files : List OutputFile) : List OutputFile :=
  files.filter fun f => !kept f

theorem unkept_cons (kept : OutputFile → Bool) (f : OutputFile) (files : List OutputFile) :
    unkept kept (f :: files) = (if kept f then [] else [f]) ++ unkept kept files := by
  rw [unkept, List.filter_cons]
  cases kept f <;> rfl

theorem unkept_append (kept : OutputFile → Bool) (files more : List OutputFile) :
    unkept kept (files ++ more) = unkept kept files ++ unkept kept more :=
  List.filter_append files more

/-- Each of the files, when its turn comes, is kept or written as it was foreseen. -/
def Foreseen (kept : OutputFile → Bool) (files : List OutputFile) (w : World) : Prop :=
  ∀ before f after u, files = before ++ f :: after → Filled (unkept kept before) w u →
    f.keeps u = kept f

theorem Foreseen.tail {kept : OutputFile → Bool} (h : Foreseen kept (f :: files) w)
    (hfilled : Filled (if kept f then [] else [f]) w u) : Foreseen kept files u := by
  rintro before g after v rfl hbefore
  refine h (f :: before) g after v rfl ?_
  rw [unkept_cons]
  exact hfilled.append hbefore

/-- **Files that are written one after the other fill their places**, if none of them fails. -/
theorem filled_of_produceAll {kept : OutputFile → Bool} (hforeseen : Foreseen kept files w)
    (hlinkless : w.tree.Linkless) (hup : ∀ f ∈ files, ".." ∉ f.path.steps)
    {units : List UnitOutcome}
    (h : (produceAll false files : Session (Except Failure (List UnitOutcome))) w = (.ok units, v)) :
    units = files.map (settled kept) ∧ Filled (unkept kept files) w v := by
  induction files generalizing w units with
  | nil =>
      cases h
      exact ⟨rfl, .of_still (World.Still.refl _)⟩
  | cons f files ih =>
      obtain ⟨first, u, hfirst, h⟩ := session_bind_cases h
      obtain ⟨written, x, hwrite, hfirst⟩ := session_bind_cases hfirst
      cases written with
      | error failure =>
          cases hfirst
          cases h
      | ok done =>
          obtain ⟨hfate, hfilled⟩ := filled_of_write hlinkless (hup f List.mem_cons_self) hwrite
          have hkept := hforeseen [] f files w rfl (.of_still (World.Still.refl w))
          rw [OutputFile.fate, hkept] at hfate
          rw [hkept] at hfilled
          have houtcome : first = .ok (settled kept f) ∧ u = x := by
            rw [settled]
            cases hk : kept f <;> rw [hk] at hfate <;> subst hfate <;> cases hfirst <;>
              exact ⟨rfl, rfl⟩
          obtain ⟨rfl, rfl⟩ := houtcome
          obtain ⟨others, y, hothers, h⟩ := session_bind_cases h
          cases others with
          | error failure => cases h
          | ok outcomes =>
              cases h
              obtain ⟨houtcomes, hrest⟩ := ih (hforeseen.tail hfilled)
                (hfilled.linkless hlinkless) (fun g hg => hup g (List.mem_cons_of_mem _ hg)) hothers
              rw [houtcomes, unkept_cons]
              exact ⟨rfl, hfilled.append hrest⟩

/-! ### Planned files -/

/-- The files that a declaration file asks for, as it stands in a world. -/
def plan (o : GenerateOptions) (w : World) (path : Path) : List OutputFile :=
  (requestsAt o w path).flatMap (Request.files o)

theorem plan_of_ok {d : Opened} (h : openAt o w path = .ok d) :
    plan o w path = d.files o path := by
  rw [plan, requestsAt_of_ok h, Opened.files, filesFor_eq]

theorem plan_of_error {failure : Failure} (h : openAt o w path = .error failure) :
    plan o w path = [] := by
  rw [plan, requestsAt_of_error h, List.flatMap_nil]

theorem up_notMem_join {folder : Path} {name : String} (hup : ".." ∉ folder.steps)
    (hplain : IsPlain name) (hslash : '/' ∉ name.toList) : ".." ∉ (folder.join name).steps := by
  rw [steps_join hplain hslash, List.mem_append, List.mem_singleton]
  rintro (hmem | hname)
  · exact hup hmem
  · exact hplain.2 hname.symm

theorem up_notMem_defaultOutput (hup : ".." ∉ path.steps) : ".." ∉ (defaultOutput path).steps := by
  have hjoin : ∀ folder : Path, ".." ∉ folder.steps →
      ".." ∉ (folder.join useCasesDirectory).steps :=
    fun folder hfolder => up_notMem_join hfolder ⟨by decide, by decide⟩ (by decide)
  have habove : ∀ p q : Path, p.parent? = some q → ".." ∉ p.steps → ".." ∉ q.steps :=
    fun p q hparent hp hmem => hp ((parent?_steps hparent).2.subset hmem)
  have hparent : ".." ∉ Path.steps (path.parent?.getD "") := by
    cases hparent : path.parent? with
    | none => decide
    | some parent => exact habove path parent hparent hup
  unfold defaultOutput
  simp only
  split
  · rename_i grandparent _ hgrandparent
    exact hjoin _ (habove _ _ hgrandparent hparent)
  · exact hjoin _ hparent

/-- A planned file has a name of its own in the output directory. -/
theorem path_of_mem_plan (hf : f ∈ plan o w path) : ∃ name : String,
    f.path = (o.outputFor path).join name ∧ IsPlain name ∧ '/' ∉ name.toList := by
  obtain ⟨r, hr, hf⟩ := List.mem_flatMap.mp hf
  rw [Request.files_eq] at hf
  obtain ⟨unit, hunit, rfl⟩ := List.mem_map.mp hf
  refine ⟨unit.fileName, ?_,
    Request.isPlain_of_mem_units (isIdentifier_of_mem_requestsAt hr) hunit⟩
  rw [Request.file, declaration_of_mem_requestsAt hr]

/-- The paths of planned files never go up, if what is given does not. -/
theorem up_notMem_plan (houtput : ∀ folder ∈ o.output, ".." ∉ Path.steps folder)
    (hup : ".." ∉ path.steps) (hf : f ∈ plan o w path) : ".." ∉ f.path.steps := by
  obtain ⟨name, hpath, hplain, hslash⟩ := path_of_mem_plan hf
  rw [hpath]
  refine up_notMem_join ?_ hplain hslash
  rw [GenerateOptions.outputFor]
  cases hgiven : o.output with
  | some folder => exact houtput folder hgiven
  | none =>
      rw [Option.getD_none]
      exact up_notMem_defaultOutput hup

/-! ### Declaration files while places are filled -/

theorem readText_fst (path : Path) (w : World) :
    ((readText path : Session (Except OsError String)) w).1 =
      match w.read path with
      | .error e => .error e
      | .ok bytes =>
        match String.fromUTF8? bytes with
        | some text => .ok text
        | none => .error .notText := by
  have hhost : (Host.read path : Session (Except OsError ByteArray)) w = (w.read path, w) := rfl
  rw [readText, session_bind, hhost]
  cases w.read path with
  | error e => rfl
  | ok bytes =>
      simp only
      cases String.fromUTF8? bytes <;> rfl

/-- What opening a declaration file comes to depends only on what is read. -/
theorem openAt_of_read (h : v.read path = w.read path) : openAt o v path = openAt o w path := by
  rw [openAt, openAt, readText_fst, readText_fst, h]

theorem openAt_of_read_error {e : OsError} (h : w.read path = .error e) :
    openAt o w path = .error (.read path e) := by
  rw [openAt, readText_fst, h]

/-- **A declaration file that was not touched is opened as before**, and if it is not opened, it was
not before. -/
theorem openAt_ok_iff (h : w.Builds touched v) (hlinkless : w.tree.Linkless)
    (hup : ".." ∉ path.steps) (hfree : ¬touched (path.place w.cwd)) {d : Opened} :
    openAt o v path = .ok d ↔ openAt o w path = .ok d := by
  have hread : ∀ content, v.read path = .ok content ↔ w.read path = .ok content :=
    fun _ => h.toChanges.read_ok_iff hlinkless hup hfree
  cases hold : w.read path with
  | ok content => rw [openAt_of_read (((hread content).mpr hold).trans hold.symm)]
  | error e =>
      cases hnew : v.read path with
      | ok content =>
          rw [(hread content).mp hnew] at hold
          cases hold
      | error e' =>
          rw [openAt_of_read_error hold, openAt_of_read_error hnew]
          simp only [reduceCtorEq]

end UseCases.Project
