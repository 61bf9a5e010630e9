/-
Declaration files in any order.

A run can write a file if nothing but directories is on the way to it and no directory in its place.
Files that are written beside it do not change that: they make directories on its way, at most.  So
whether a run fails, what it reports of each declaration file and what it leaves at each location
depends on the tree that it starts from and not on the order in which it takes the declaration files.
-/
import UseCases.Proofs.Files.Making
import UseCases.Proofs.Project.Filling
import UseCases.Proofs.Project.Isolation

namespace UseCases.Project

open Declaration Files Generation Report

variable {f : OutputFile} {files more done : List OutputFile} {w u v x : World}
  {location : Location} {o : GenerateOptions} {path : Path} {paths : List Path}
  {touched : Location → Prop}

/-! ### Files that can be placed -/

namespace OutputFile

/-- The path of the file goes down to a last name. -/
structure IsNamed (f : OutputFile) : Prop where
  ends : f.path.EndsInStep
  steps : f.path.steps ≠ []
  up : ".." ∉ f.path.steps

theorem IsNamed.place_ne (h : f.IsNamed) (cwd : Location) : f.place cwd ≠ [] :=
  fun hnil => h.steps (List.append_eq_nil_iff.mp hnil).2

/-- The file is left alone, or it can be written in its place. -/
def Placeable (w : World) (f : OutputFile) : Prop :=
  f.keeps w = true ∨ f.path.Straight ∧ w.tree.Takes (f.place w.cwd)

/-- The directories on the way to a file that can be written in its place are made, and it still can
be written there. -/
theorem prepare_ok (hlinkless : w.tree.Linkless) (hnamed : f.IsNamed) (hp : f.path.Straight)
    (htakes : w.tree.Takes (f.place w.cwd)) :
    ∃ u, (f.prepare : Session (Except Failure Unit)) w = (.ok (), u) ∧
      w.Changes (fun _ => False) u ∧ u.tree.isDirectory (f.place w.cwd).dropLast = true ∧
      u.tree.Takes (f.place w.cwd) := by
  cases hparent : f.path.parent? with
  | none => exact absurd (steps_of_parent?_none hparent) hnamed.steps
  | some parent =>
      have hplace : parent.place w.cwd = (f.place w.cwd).dropLast :=
        place_of_parent? hparent hnamed.steps w.cwd
      obtain ⟨u, hmade, hdirectory⟩ := makeDirectories_ok (hp.parent hparent) (hplace ▸ htakes.way)
      have hparentUp : ".." ∉ parent.steps := fun hmem =>
        hnamed.up ((parent?_steps hparent).2.subset hmem)
      have hbuilds := buildsTo_makeDirectories hparentUp (List.prefix_refl _) w hlinkless rfl
      rw [hmade] at hbuilds
      have hquiet := (quiet_makeDirectories parent).changes hmade
      rw [hplace] at hdirectory
      refine ⟨u, ?_, hquiet, hdirectory, hquiet.isPassable htakes.way, ?_⟩
      · rw [prepare, hparent]
        exact session_bind_of hmade
      · rcases htakes.place with hnone | ⟨content, hfile⟩
        · -- the directories end above the place, so nothing came to the place itself
          left
          by_contra hsome
          obtain ⟨place, rfl, hon⟩ := hbuilds.onTheWay _ hnone hsome
          have hlength := hon.length_le
          rw [hplace, List.length_dropLast] at hlength
          have hpositive := List.length_pos_iff.mpr (hnamed.place_ne w.cwd)
          omega
        · exact Or.inr (hquiet.grown.file _ content hfile)

/-- A file that can be written in its place is stored there. -/
theorem store_ok (hlinkless : w.tree.Linkless) (hnamed : f.IsNamed) (hp : f.path.Straight)
    (htakes : w.tree.Takes (f.place w.cwd)) :
    ∃ v, (f.store : Session (Except Failure Unit)) w = (.ok (), v) := by
  obtain ⟨u, hprepared, hchanges, hdirectory, htakes'⟩ := prepare_ok hlinkless hnamed hp htakes
  rw [OutputFile.place, ← hchanges.cwd] at hdirectory htakes'
  obtain ⟨v, hwritten⟩ := write_of_takes hp hdirectory htakes' f.content.toUTF8
  refine ⟨v, ?_⟩
  rw [store, session_bind_of hprepared]
  exact session_bind_of hwritten

section Beside

variable (h : w.Builds touched v) (hlinkless : w.tree.Linkless) (hnamed : f.IsNamed)
  (hbeside : ∀ place, touched place → Beside (f.place w.cwd) place)
include h hlinkless hnamed hbeside

/-- Work beside a file does not change whether it is left alone. -/
theorem keeps_built : f.keeps v = f.keeps w := by
  unfold keeps
  cases f.overwrite with
  | always => rfl
  | ifMissing =>
      exact h.kind?_isSome hlinkless hnamed.up fun place hplace => (hbeside place hplace).1

/-- A file that can be placed is written or skipped, whatever was done beside it. -/
theorem write_ok (hplaceable : f.Placeable w) :
    ∃ done x, (f.write : Session (Except Failure Written)) v = (.ok done, x) := by
  have hkeeps := keeps_built h hlinkless hnamed hbeside
  cases hk : f.keeps v with
  | true => exact ⟨_, _, write_of_keeps hk⟩
  | false =>
      rcases hplaceable with hkept | ⟨hp, htakes⟩
      · rw [← hkeeps, hk] at hkept
        cases hkept
      · have htakes' := h.takes hbeside htakes
        rw [OutputFile.place, ← h.cwd] at htakes'
        obtain ⟨y, hstored⟩ := store_ok (h.linkless hlinkless) hnamed hp htakes'
        obtain ⟨x, -, hwrite⟩ := write_of_store hk hstored
        exact ⟨_, x, hwrite⟩

/-- A file that was written or skipped could be placed from the start. -/
theorem placeable_of_write {done : Written}
    (hwrite : (f.write : Session (Except Failure Written)) v = (.ok done, x)) : f.Placeable w := by
  have hkeeps := keeps_built h hlinkless hnamed hbeside
  obtain ⟨-, hfilled⟩ := filled_of_write (h.linkless hlinkless) hnamed.up hwrite
  rw [hkeeps] at hfilled
  cases hk : f.keeps w with
  | true => exact Or.inl hk
  | false =>
      rw [hk] at hfilled
      have htarget := hfilled.targets f List.mem_cons_self
      obtain ⟨hsound, hne⟩ := sound_of_found (hfilled.linkless (h.linkless hlinkless)) hnamed.up
        htarget
      refine Or.inr ⟨⟨hsound, hne, hnamed.ends, hnamed.up⟩, ?_⟩
      have hlast : lastContent? v.cwd [f] (f.place v.cwd) = some f.content := by
        rw [lastContent?, List.filterMap_cons, contentAt?, if_pos rfl]
        rfl
      rw [← h.cwd]
      exact (h.grown.trans hfilled.builds.grown).takes (hnamed.place_ne v.cwd)
        (hfilled.contents _ _ hlast)

end Beside

end OutputFile

/-! ### Files beside each other -/

/-- The paths of the files go down to last names, and their places are beside each other. -/
structure Arranged (cwd : Location) (files : List OutputFile) : Prop where
  named : ∀ f ∈ files, f.IsNamed
  beside : files.Pairwise fun f g => Beside (f.place cwd) (g.place cwd)

theorem Arranged.sublist {cwd : Location} (h : Arranged cwd files) (hsub : more.Sublist files) :
    Arranged cwd more :=
  ⟨fun f hf => h.named f (hsub.subset hf), h.beside.sublist hsub⟩

theorem Arranged.head_beside (h : Arranged w.cwd (done ++ f :: files)) :
    ∀ place, GoesTo w.cwd done place → Beside (f.place w.cwd) place := by
  rintro place ⟨g, hg, rfl⟩
  exact ((List.pairwise_append.mp h.beside).2.2 g hg f List.mem_cons_self).symm

theorem unkept_sublist (kept : OutputFile → Bool) (files : List OutputFile) :
    (unkept kept files).Sublist files :=
  List.filter_sublist

/-- How a file is reported once it was written or skipped. -/
theorem produce_of_write {became : Written}
    (h : (f.write : Session (Except Failure Written)) v = (.ok became, x)) :
    ∃ outcome, (produce false f : Session (Except Failure UnitOutcome)) v = (.ok outcome, x) := by
  cases became <;> exact ⟨_, session_bind_of h⟩

section Arranged

variable (hlinkless : w.tree.Linkless)
include hlinkless

/-- What becomes of files beside each other is known from the start. -/
theorem foreseen_of_arranged (hfilled : Filled done w v)
    (harranged : Arranged w.cwd (done ++ files)) :
    Foreseen (OutputFile.keeps w) files v := by
  rintro before f after u rfl hbefore
  have hsub : (done ++ unkept (OutputFile.keeps w) before ++ [f]).Sublist
      (done ++ (before ++ f :: after)) := by
    rw [List.append_assoc]
    refine (List.Sublist.refl done).append ((unkept_sublist _ before).append ?_)
    exact List.singleton_sublist.mpr List.mem_cons_self
  have harranged' := harranged.sublist hsub
  exact OutputFile.keeps_built (hfilled.append hbefore).builds hlinkless
    (harranged'.named f (by simp)) harranged'.head_beside

/-- The next of the files was written or skipped, and the others stay arranged. -/
theorem Arranged.advance (harranged : Arranged w.cwd (done ++ f :: files))
    (hfilled : Filled done w v) {became : Written}
    (hwrite : (f.write : Session (Except Failure Written)) v = (.ok became, x)) :
    ∃ more, Filled more w x ∧ Arranged w.cwd (more ++ files) := by
  obtain ⟨-, hone⟩ := filled_of_write (hfilled.linkless hlinkless)
    (harranged.named f (by simp)).up hwrite
  refine ⟨_, hfilled.append hone, harranged.sublist ?_⟩
  rw [List.append_assoc]
  refine (List.Sublist.refl done).append ?_
  cases f.keeps v with
  | true => exact List.sublist_cons_self f files
  | false => exact List.Sublist.refl _

/-- **Files that can be placed are all written or skipped.** -/
theorem produceAll_ok (hfilled : Filled done w v) (harranged : Arranged w.cwd (done ++ files))
    (hplaceable : ∀ f ∈ files, f.Placeable w) : ∃ units x,
      (produceAll false files : Session (Except Failure (List UnitOutcome))) v = (.ok units, x) := by
  induction files generalizing done v with
  | nil => exact ⟨[], v, rfl⟩
  | cons f files ih =>
      obtain ⟨became, x, hwrite⟩ := OutputFile.write_ok hfilled.builds hlinkless
        (harranged.named f (by simp)) harranged.head_beside (hplaceable f List.mem_cons_self)
      obtain ⟨outcome, hproduced⟩ := produce_of_write hwrite
      obtain ⟨more, hfilled', harranged'⟩ := harranged.advance hlinkless hfilled hwrite
      obtain ⟨units, y, hunits⟩ := ih hfilled' harranged'
        fun g hg => hplaceable g (List.mem_cons_of_mem f hg)
      refine ⟨outcome :: units, y, ?_⟩
      rw [produceAll, session_bind_of hproduced]
      exact session_bind_of hunits

/-- Files that were all written or skipped could be placed from the start. -/
theorem placeable_of_produceAll (hfilled : Filled done w v)
    (harranged : Arranged w.cwd (done ++ files)) {units : List UnitOutcome}
    (h : (produceAll false files : Session (Except Failure (List UnitOutcome))) v = (.ok units, x)) :
    ∀ f ∈ files, f.Placeable w := by
  induction files generalizing done v x units with
  | nil => simp
  | cons f files ih =>
      obtain ⟨first, u, hfirst, h⟩ := session_bind_cases h
      obtain ⟨result, y, hwrite, hfirst⟩ := session_bind_cases hfirst
      cases result with
      | error failure =>
          cases hfirst
          cases h
      | ok became =>
          obtain ⟨outcome, rfl, rfl⟩ : ∃ outcome, first = .ok outcome ∧ u = y := by
            cases became <;> cases hfirst <;> exact ⟨_, rfl, rfl⟩
          obtain ⟨others, z, hothers, h⟩ := session_bind_cases h
          cases others with
          | error failure => cases h
          | ok outcomes =>
              obtain ⟨more, hfilled', harranged'⟩ := harranged.advance hlinkless hfilled hwrite
              rw [List.forall_mem_cons]
              exact ⟨OutputFile.placeable_of_write hfilled.builds hlinkless
                (harranged.named f (by simp)) harranged.head_beside hwrite,
                ih hfilled' harranged' hothers⟩

end Arranged

/-! ### Turns of a run -/

/-- A planned file goes down to a name of its own. -/
theorem isNamed_of_mem_plan (houtput : ∀ folder ∈ o.output, ".." ∉ Path.steps folder)
    (hup : ".." ∉ path.steps) (hf : f ∈ plan o w path) : f.IsNamed := by
  obtain ⟨name, hpath, hplain, hslash⟩ := path_of_mem_plan hf
  obtain ⟨front, hpieces, -⟩ := pathPieces_join (o.outputFor path) hslash
  refine ⟨?_, ?_, up_notMem_plan houtput hup hf⟩
  · rw [hpath]
    exact Or.inr ⟨front, name, hpieces, isStep_of_isPlain hplain⟩
  · rw [hpath, steps_join hplain hslash]
    simp

/-- The declaration file can be opened, and all its files can be placed. -/
structure Succeeds (o : GenerateOptions) (w : World) (path : Path) : Prop where
  opened : ∃ d, openAt o w path = .ok d
  placeable : ∀ f ∈ plan o w path, f.Placeable w

/-- What is reported of a declaration file that succeeds. -/
def reportAt (o : GenerateOptions) (w : World) (path : Path) : DeclarationReport :=
  match openAt o w path with
  | .ok d => d.report path ((plan o w path).map (settled (OutputFile.keeps w)))
  | .error _ => ⟨path, "", 0, [], []⟩

theorem reportAt_of_ok {d : Opened} (h : openAt o w path = .ok d) :
    reportAt o w path = d.report path ((plan o w path).map (settled (OutputFile.keeps w))) := by
  rw [reportAt, h]

/-- A declaration file that is reported was opened, also in the world before, and the report has the
paths of the files that were planned there. -/
theorem plan_of_entry {report : DeclarationReport} (hlinkless : w.tree.Linkless)
    (hbuilds : w.Builds touched v) (hup : ".." ∉ path.steps)
    (hfree : ¬touched (path.place w.cwd)) (hentry : Turn.entry o ⟨path, v⟩ = .inl report) :
    (∃ d, openAt o w path = .ok d) ∧
      report.units.map UnitOutcome.path = (plan o w path).map OutputFile.path := by
  have hreport : ((generateFile o path : Session (Except Failure DeclarationReport)) v).1 =
      .ok report := by
    unfold Turn.entry Turn.result at hentry
    simp only at hentry
    split at hentry
    · rename_i hok
      rw [hok, Sum.inl.inj hentry]
    · cases hentry
  obtain ⟨d, hopen, -, hpaths⟩ := report_of_generateFile hreport
  have hold := (openAt_ok_iff hbuilds hlinkless hup hfree).mp hopen
  exact ⟨⟨d, hold⟩, by rw [hpaths, plan_of_ok hold, paths_files]⟩

section Turn

variable (hlinkless : w.tree.Linkless) (hreal : o.dryRun = false) (hfilled : Filled done w v)
  (harranged : Arranged w.cwd (done ++ plan o w path)) (hup : ".." ∉ path.steps)
  (hfree : ¬GoesTo w.cwd done (path.place w.cwd))
include hlinkless hreal hfilled harranged hup hfree

/-- A declaration file that can be opened and placed is reported as it stands in the world
before. -/
theorem turn_of_succeeds (h : Succeeds o w path) :
    Filled (unkept (OutputFile.keeps w) (plan o w path)) v (runAll o [path] v).2 ∧
      Turn.entry o ⟨path, v⟩ = .inl (reportAt o w path) := by
  obtain ⟨d, hold⟩ := h.opened
  have hopen := (openAt_ok_iff hfilled.builds hlinkless hup hfree).mpr hold
  obtain ⟨u, result, x, hstill, hproduced, hend, hentry⟩ := entry_of_openAt hopen
  rw [hreal, ← plan_of_ok hold] at hproduced
  have hfilled' := hfilled.still hstill
  obtain ⟨units, y, hok⟩ := produceAll_ok hlinkless hfilled' harranged h.placeable
  obtain ⟨rfl, rfl⟩ := Prod.mk.inj (hproduced.symm.trans hok)
  obtain ⟨rfl, hwritten⟩ := filled_of_produceAll
    (foreseen_of_arranged hlinkless hfilled' harranged) (hfilled'.linkless hlinkless)
    (fun f hf => (harranged.named f (List.mem_append_right _ hf)).up) hproduced
  exact ⟨(hwritten.still hend).after hstill, by rw [hentry, reportAt_of_ok hold]⟩

/-- A declaration file that is reported can be opened and placed in the world before. -/
theorem succeeds_of_turn {report : DeclarationReport}
    (hentry : Turn.entry o ⟨path, v⟩ = .inl report) : Succeeds o w path := by
  obtain ⟨⟨d, hold⟩, -⟩ := plan_of_entry hlinkless hfilled.builds hup hfree hentry
  refine ⟨⟨d, hold⟩, ?_⟩
  have hopen := (openAt_ok_iff hfilled.builds hlinkless hup hfree).mpr hold
  obtain ⟨u, result, x, hstill, hproduced, -, hresult⟩ := entry_of_openAt hopen
  rw [hreal, ← plan_of_ok hold] at hproduced
  cases result with
  | error failure =>
      rw [hentry] at hresult
      cases hresult
  | ok units =>
      exact placeable_of_produceAll hlinkless (hfilled.still hstill) harranged hproduced

end Turn

/-! ### Runs over independent declaration files -/

/-- The units at these paths lie beside each other, and none of them in the place of a declaration
file or above it. -/
structure Independent (cwd : Location) (units paths : List Path) : Prop where
  beside : units.Pairwise fun p q => Beside (p.place cwd) (q.place cwd)
  free : ∀ path ∈ paths, ∀ unit ∈ units, ¬unit.place cwd <+: path.place cwd

namespace Independent

variable {cwd : Location} {units units' paths' : List Path}

theorem mono (h : Independent cwd units paths) (hunits : units'.Sublist units)
    (hpaths : paths' ⊆ paths) : Independent cwd units' paths' :=
  ⟨h.beside.sublist hunits, fun path hpath unit hunit =>
    h.free path (hpaths hpath) unit (hunits.subset hunit)⟩

theorem perm (h : Independent cwd units paths) (hunits : units'.Perm units)
    (hpaths : paths'.Perm paths) : Independent cwd units' paths' :=
  ⟨(hunits.pairwise_iff Beside.symm).mpr h.beside, fun path hpath unit hunit =>
    h.free path (hpaths.subset hpath) unit (hunits.subset hunit)⟩

theorem arranged (h : Independent cwd (files.map OutputFile.path ++ units) paths)
    (hnamed : ∀ f ∈ files, f.IsNamed) : Arranged cwd files := by
  refine ⟨hnamed, ?_⟩
  have hbeside := h.beside.sublist (List.sublist_append_left _ _)
  rwa [List.pairwise_map] at hbeside

theorem not_goesTo (h : Independent cwd (files.map OutputFile.path ++ units) paths)
    (hpath : path ∈ paths) : ¬GoesTo cwd files (path.place cwd) := by
  rintro ⟨f, hf, hplace⟩
  refine h.free path hpath f.path (List.mem_append_left _ (List.mem_map_of_mem hf)) ?_
  rw [← hplace]
  exact List.prefix_refl _

end Independent

/-- The paths of the units that are reported. -/
def reportedPaths (entries : List (DeclarationReport ⊕ FailedDeclaration)) : List Path :=
  ((entries.filterMap Sum.getLeft?).flatMap DeclarationReport.units).map UnitOutcome.path

theorem reportedPaths_cons (report : DeclarationReport)
    (entries : List (DeclarationReport ⊕ FailedDeclaration)) :
    reportedPaths (.inl report :: entries) =
      report.units.map UnitOutcome.path ++ reportedPaths entries := by
  show ((report :: entries.filterMap Sum.getLeft?).flatMap DeclarationReport.units).map _ = _
  rw [List.flatMap_cons, List.map_append]
  rfl

/-- A run is on its way from the first world to the second: it filled the places of `done`, and units
at the paths `units` are still to come of the declaration files `paths`. -/
structure Midway (w v : World) (done : List OutputFile) (units paths : List Path) : Prop where
  filled : Filled done w v
  named : ∀ f ∈ done, f.IsNamed
  independent : Independent w.cwd (done.map OutputFile.path ++ units) paths

variable {units : List Path}

theorem Midway.of_start (h : Independent w.cwd units paths) : Midway w w [] units paths :=
  ⟨.of_still (World.Still.refl w), by simp, h⟩

/-- No file went to the place of the next declaration file. -/
theorem Midway.free (h : Midway w v done units (path :: paths)) :
    ¬GoesTo w.cwd done (Path.place w.cwd path) :=
  h.independent.not_goesTo List.mem_cons_self

section Run

variable (hlinkless : w.tree.Linkless) (hreal : o.dryRun = false)
  (houtput : ∀ folder ∈ o.output, ".." ∉ Path.steps folder)
include houtput

/-- The files of the next declaration file lie beside those that were written. -/
theorem Midway.arranged (hup : ".." ∉ path.steps)
    (h : Midway w v done ((plan o w path).map OutputFile.path ++ units) (path :: paths)) :
    Arranged w.cwd (done ++ plan o w path) := by
  have hindependent := h.independent
  rw [← List.append_assoc, ← List.map_append] at hindependent
  exact hindependent.arranged (List.forall_mem_append.mpr
    ⟨h.named, fun f hf => isNamed_of_mem_plan houtput hup hf⟩)

include hlinkless hreal

/-- After the turn of a declaration file that can be opened and placed the run is still on its
way. -/
theorem Midway.step (hup : ".." ∉ path.steps)
    (h : Midway w v done ((plan o w path).map OutputFile.path ++ units) (path :: paths))
    (hsucceeds : Succeeds o w path) :
    Midway w (runAll o [path] v).2 (done ++ unkept (OutputFile.keeps w) (plan o w path)) units
        paths ∧
      Turn.entry o ⟨path, v⟩ = .inl (reportAt o w path) := by
  have harranged := h.arranged houtput hup
  obtain ⟨hwritten, hentry⟩ :=
    turn_of_succeeds hlinkless hreal h.filled harranged hup h.free hsucceeds
  have hsub := (List.Sublist.refl done).append
    (unkept_sublist (OutputFile.keeps w) (plan o w path))
  have hindependent := h.independent
  rw [← List.append_assoc, ← List.map_append] at hindependent
  exact ⟨⟨h.filled.append hwritten, fun f hf => harranged.named f (hsub.subset hf),
    hindependent.mono ((hsub.map _).append_right _) (List.subset_cons_self path paths)⟩, hentry⟩

variable (hup : ∀ path ∈ paths, ".." ∉ Path.steps path)
include hup

/-- **In a run without failures every declaration file could be opened and placed from the
start.** -/
theorem succeeds_of_runAll (hleft : ∀ entry ∈ entries o paths v, entry.isLeft = true)
    (h : Midway w v done (reportedPaths (entries o paths v)) paths) :
    (∀ path ∈ paths, Succeeds o w path) ∧
      reportedPaths (entries o paths v) = (paths.flatMap (plan o w)).map OutputFile.path := by
  induction paths generalizing v done with
  | nil => exact ⟨by simp, rfl⟩
  | cons path paths ih =>
      rw [entries_cons] at hleft h ⊢
      obtain ⟨hhead, hrest⟩ := List.forall_mem_cons.mp hleft
      obtain ⟨hupHead, hupRest⟩ := List.forall_mem_cons.mp hup
      obtain ⟨report, hentry⟩ := Sum.isLeft_iff.mp hhead
      rw [hentry, reportedPaths_cons] at h ⊢
      obtain ⟨-, hpaths⟩ := plan_of_entry hlinkless h.filled.builds hupHead h.free hentry
      rw [hpaths] at h
      have hsucceeds := succeeds_of_turn hlinkless hreal h.filled
        (h.arranged houtput hupHead) hupHead h.free hentry
      obtain ⟨hothers, hreported⟩ :=
        ih hupRest hrest (h.step hlinkless hreal houtput hupHead hsucceeds).1
      refine ⟨List.forall_mem_cons.mpr ⟨hsucceeds, hothers⟩, ?_⟩
      rw [hpaths, hreported, List.flatMap_cons, List.map_append]

/-- **A run over declaration files that can be opened and placed** reports each of them as it stands
in the world before, and fills the places of the files that are not kept. -/
theorem runAll_of_succeeds (hsucceeds : ∀ path ∈ paths, Succeeds o w path)
    (h : Midway w v done ((paths.flatMap (plan o w)).map OutputFile.path) paths) :
    Filled (done ++ unkept (OutputFile.keeps w) (paths.flatMap (plan o w))) w (runAll o paths v).2 ∧
      entries o paths v = paths.map fun path => .inl (reportAt o w path) := by
  induction paths generalizing v done with
  | nil =>
      rw [List.flatMap_nil, unkept, List.filter_nil, List.append_nil]
      exact ⟨h.filled, rfl⟩
  | cons path paths ih =>
      obtain ⟨hhead, hrest⟩ := List.forall_mem_cons.mp hsucceeds
      obtain ⟨hupHead, hupRest⟩ := List.forall_mem_cons.mp hup
      rw [List.flatMap_cons, List.map_append] at h
      obtain ⟨hnext, hentry⟩ := h.step hlinkless hreal houtput hupHead hhead
      obtain ⟨hfilled, hentries⟩ := ih hupRest hrest hnext
      rw [runAll_cons, entries_cons, hentry, hentries, List.flatMap_cons, unkept_append,
        ← List.append_assoc, List.map_cons]
      exact ⟨hfilled, rfl⟩

end Run

/-! ### Files in another order -/

/-- Of files beside each other at most one goes to a location, whatever their order. -/
theorem lastContent?_perm {cwd : Location} (hperm : more.Perm files) (h : Arranged cwd files)
    (location : Location) : lastContent? cwd more location = lastContent? cwd files location := by
  have hmost : (files.filterMap (contentAt? cwd location)).Pairwise fun _ _ => False := by
    have hgoes : ∀ f content, contentAt? cwd location f = some content → f.place cwd = location := by
      intro f content hcontent
      by_contra hne
      rw [contentAt?, if_neg hne] at hcontent
      cases hcontent
    refine h.beside.filterMap _ fun f g hbeside a ha b hb => hbeside.ne ?_
    rw [hgoes f a ha, hgoes g b hb]
  have hcontents := hperm.filterMap (contentAt? cwd location)
  rw [lastContent?, lastContent?, List.Perm.eq_of_pairwise (fun _ _ _ _ hfalse => hfalse.elim)
    ((hcontents.pairwise_iff id).mpr hmost) hmost hcontents]

theorem filledAt?_perm {cwd : Location} (hperm : more.Perm files) (h : Arranged cwd files)
    (old : Option Files.Entry) (location : Location) :
    filledAt? cwd more old location = filledAt? cwd files old location := by
  have hway : (∃ f ∈ more, location <+: f.place cwd) ↔ ∃ f ∈ files, location <+: f.place cwd := by
    simp only [hperm.mem_iff]
  rw [filledAt?, filledAt?, lastContent?_perm hperm h]
  simp only [hway]

/-! ### Runs in another order -/

/-- Two runs over the same declaration files in different orders come to the same. -/
structure SameOutcome (paths paths' : List Path) (run run' : GenerationReport × World) : Prop where
  failures : run'.1.failures = []
  /-- What is reported of each declaration file is the same. -/
  reports : ∃ report : Path → DeclarationReport,
    run.1.declarations = paths.map report ∧ run'.1.declarations = paths'.map report
  tree : ∀ location, run'.2.tree.find? location = run.2.tree.find? location

/--
**The order of independent declaration files does not matter.**  Where no link stands and no path
goes up, take a run that writes, without failures, units that lie beside each other and not in the
place of a declaration file or above it.  With the declaration files in any other order, the run has
no failures, reports the same of each declaration file and leaves the same at each location.
-/
theorem generate_reordered (o : GenerateOptions) (paths paths' : List Path) (w : World)
    (hreal : o.dryRun = false) (hlinkless : w.tree.Linkless)
    (hup : ∀ path ∈ paths, ".." ∉ Path.steps path)
    (houtput : ∀ folder ∈ o.output, ".." ∉ Path.steps folder)
    (hdone : ((generate o paths : Session GenerationReport) w).1.failures = [])
    (hindependent : Independent w.cwd
      (((generate o paths : Session GenerationReport) w).1.units.map UnitOutcome.path) paths)
    (hperm : paths'.Perm paths) :
    SameOutcome paths paths' ((generate o paths : Session GenerationReport) w)
      ((generate o paths' : Session GenerationReport) w) := by
  -- what the given run shows of the world that it starts from
  have hleft : ∀ entry ∈ entries o paths w, entry.isLeft = true := by
    rw [failures_generate, List.filterMap_eq_nil_iff] at hdone
    intro entry hentry
    have hright := hdone entry hentry
    cases entry with
    | inl report => rfl
    | inr failure => cases hright
  rw [GenerationReport.units, declarations_generate, ← reportedPaths] at hindependent
  obtain ⟨hsucceeds, hplanned⟩ := succeeds_of_runAll hlinkless hreal houtput hup hleft
    (.of_start hindependent)
  rw [hplanned] at hindependent
  -- what it means for a run in any order
  have hrun : ∀ order, order.Perm paths →
      Filled (unkept (OutputFile.keeps w) (order.flatMap (plan o w))) w (runAll o order w).2 ∧
        entries o order w = order.map fun path => .inl (reportAt o w path) := by
    intro order horder
    have hfiles := (horder.flatMap_right (plan o w)).map OutputFile.path
    exact runAll_of_succeeds hlinkless hreal houtput
      (fun path hpath => hup path (horder.subset hpath))
      (fun path hpath => hsucceeds path (horder.subset hpath))
      (.of_start (hindependent.perm hfiles horder))
  obtain ⟨hfilled, hentries⟩ := hrun paths (List.Perm.refl paths)
  obtain ⟨hfilled', hentries'⟩ := hrun paths' hperm
  have hreports : ∀ order : List Path,
      (order.map fun path => (.inl (reportAt o w path) :
        DeclarationReport ⊕ FailedDeclaration)).filterMap Sum.getLeft? =
        order.map (reportAt o w) := by
    intro order
    rw [List.filterMap_map]
    exact congrFun List.filterMap_eq_map order
  refine ⟨?failures, ⟨reportAt o w, ?declarations, ?declarations'⟩, fun location => ?tree⟩
  case failures =>
    rw [failures_generate, hentries', List.filterMap_map]
    exact List.filterMap_eq_nil_iff.mpr fun _ _ => rfl
  case declarations => rw [declarations_generate, hentries, hreports]
  case declarations' => rw [declarations_generate, hentries', hreports]
  case tree =>
    have harranged : Arranged w.cwd (paths.flatMap (plan o w)) := by
      rw [← List.append_nil (List.map OutputFile.path _)] at hindependent
      refine hindependent.arranged fun f hf => ?_
      obtain ⟨path, hpath, hf⟩ := List.mem_flatMap.mp hf
      exact isNamed_of_mem_plan houtput (hup path hpath) hf
    rw [world_generate, world_generate, hfilled.find?_eq hlinkless, hfilled'.find?_eq hlinkless]
    exact filledAt?_perm ((hperm.flatMap_right (plan o w)).filter _)
      (harranged.sublist (unkept_sublist _ _)) _ location

/-- Three declaration files in two directories, a use case that was written by hand, and a note. -/
def stocked : World :=
  worldOf
    [ ([], "a_repository.dart", .file "Future<void> get();\n".toUTF8),
      ([], "b_repository.dart", .file "Future<int> put();\nFuture<int> take();\n".toUTF8),
      ([], "data", .directory),
      (["data"], "c_repository.dart", .file "Future<int> count();\n".toUTF8),
      ([], "usecases", .directory),
      (["usecases"], "put_use_case.dart", .file "by hand".toUTF8),
      (["usecases"], "notes", .file "a note".toUTF8) ]

def stockedPaths : List Path :=
  ["a_repository.dart", "b_repository.dart", "data/c_repository.dart"]

/-- Files that exist are kept. -/
def stockingOptions : GenerateOptions :=
  ⟨.simple, "shop", some "Cart", "core/error/failures.dart", none, false, false⟩

/-- Nothing fails, and these are the units. -/
theorem report_stocked :
    ((generate stockingOptions stockedPaths : Session GenerationReport) stocked).1.failures = [] ∧
      ((generate stockingOptions stockedPaths : Session GenerationReport) stocked).1.units.map
          UnitOutcome.path =
        ["usecases/get_use_case.dart", "usecases/put_use_case.dart", "usecases/take_use_case.dart",
          "data/usecases/count_use_case.dart"] := by
  decide +kernel

theorem stocked_reordered :
    SameOutcome stockedPaths stockedPaths.reverse
      ((generate stockingOptions stockedPaths : Session GenerationReport) stocked)
      ((generate stockingOptions stockedPaths.reverse : Session GenerationReport) stocked) :=
  generate_reordered stockingOptions stockedPaths stockedPaths.reverse stocked rfl
    (by decide +kernel) (by decide +kernel) (by decide +kernel) report_stocked.1
    ⟨by rw [report_stocked.2]; decide +kernel, by rw [report_stocked.2]; decide +kernel⟩
    (List.reverse_perm _)

end UseCases.Project
