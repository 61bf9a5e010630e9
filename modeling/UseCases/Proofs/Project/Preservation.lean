/-
Runs that replace nothing.

Unless a run is told to replace files, it writes a file only where it found none.  So an attempt
only adds to the tree: what was there stays as it was, and what is new is a directory or the file
that was written.  Attempts that only add do so together as well, and what one of them wrote is found
by the later ones, so none of them writes it again.

Between the look and the writing the missing directories are made.  A path that goes up from a
missing directory leads nowhere before and perhaps to a file afterwards, and that file is replaced,
whatever stands in it.  The output directory that is given may be such a path; the one that is
derived from a declaration file is not.
-/
import UseCases.Proofs.Project.Request

namespace UseCases.Project

open Files Report

variable {o : GenerateOptions} {w u v : World} {a : Try} {tries more : List Try}
  {location : Location} {entry : Entry}

/-! ### Attempts that only add -/

/-- Of the attempts one wrote the entry to the location, and no other one wrote there. -/
def WrittenOnce (tries : List Try) (v : World) (location : Location) (entry : Entry) : Prop :=
  ∃ earlier a later, tries = earlier ++ a :: later ∧ a.WroteAt v location ∧
    entry = .file a.file.content.toUTF8 ∧ ∀ b ∈ earlier ++ later, ¬b.WroteAt v location

/-- The attempts made the second world of the first one by adding to it: what they wrote is there,
and it is all that is new, except directories. -/
structure Adds (w : World) (tries : List Try) (v : World) : Prop where
  changes : w.Changes (fun _ => True) v
  keeps : ∀ location entry, w.tree.find? location = some entry →
    v.tree.find? location = some entry
  fresh : ∀ location entry, v.tree.find? location = some entry → w.tree.find? location = none →
    entry = .directory ∨ WrittenOnce tries v location entry
  free : ∀ a ∈ tries, ∀ location, a.WroteAt v location → w.tree.find? location = none
  there : ∀ a ∈ tries, a.result = .ok .written →
    ∃ location, a.file.LeadsTo v location ∧ v.tree.find? location ≠ none

theorem Try.WroteAt.later {touched : Location → Prop} (h : a.WroteAt u location)
    (hchanges : u.Changes touched v) : a.WroteAt v location :=
  ⟨h.1, hchanges.lookup (Or.inl rfl) h.2⟩

namespace Adds

theorem of_quiet (h : w.Changes (fun _ => False) v) (hnone : ∀ a ∈ tries, a.result ≠ .ok .written) :
    Adds w tries v where
  changes := h.of_none
  keeps _ _ := h.keeps fun _ hfalse => hfalse.elim
  fresh _ _ hfound hmissing := Or.inl (h.fresh id hmissing hfound)
  free a ha _ hwrote := absurd hwrote.1 (hnone a ha)
  there a ha hwritten := absurd hwritten (hnone a ha)

/-- What an attempt wrote is still there, and nowhere else. -/
theorem wroteAt_earlier {touched : Location → Prop} (h : Adds w tries u) (ha : a ∈ tries)
    (hchanges : u.Changes touched v) (hwrote : a.WroteAt v location) :
    a.WroteAt u location ∧ u.tree.find? location ≠ none := by
  obtain ⟨place, hleads, hthere⟩ := h.there a ha hwrote.1
  have hsame : a.file.LeadsTo v place := hchanges.lookup (Or.inl rfl) hleads
  obtain rfl : place = location := by
    have heq := hsame.symm.trans hwrote.2
    cases heq
    rfl
  exact ⟨⟨hwrote.1, hleads⟩, hthere⟩

/-- What was written once is not written again by attempts that only add. -/
theorem writtenOnce_left (h : Adds w tries u) (h' : Adds u more v)
    (hthere : u.tree.find? location ≠ none) (honce : WrittenOnce tries u location entry) :
    WrittenOnce (tries ++ more) v location entry := by
  obtain ⟨earlier, a, later, rfl, hwrote, hcontent, hother⟩ := honce
  refine ⟨earlier, a, later ++ more, by simp, hwrote.later h'.changes, hcontent, ?_⟩
  intro b hb hbwrote
  rw [← List.append_assoc] at hb
  rcases List.mem_append.mp hb with hb | hb
  · have hmem : b ∈ earlier ++ a :: later := by
      rcases List.mem_append.mp hb with hb | hb
      · exact List.mem_append_left _ hb
      · exact List.mem_append_right _ (List.mem_cons_of_mem a hb)
    exact hother b hb (h.wroteAt_earlier hmem h'.changes hbwrote).1
  · exact hthere (h'.free b hb location hbwrote)

/-- What is written once to a free place was not written before. -/
theorem writtenOnce_right (h : Adds w tries u) (h' : Adds u more v)
    (hmissing : u.tree.find? location = none) (honce : WrittenOnce more v location entry) :
    WrittenOnce (tries ++ more) v location entry := by
  obtain ⟨earlier, a, later, rfl, hwrote, hcontent, hother⟩ := honce
  refine ⟨tries ++ earlier, a, later, by simp, hwrote, hcontent, ?_⟩
  intro b hb hbwrote
  rw [List.append_assoc] at hb
  rcases List.mem_append.mp hb with hb | hb
  · exact (h.wroteAt_earlier hb h'.changes hbwrote).2 hmissing
  · exact hother b hb hbwrote

/-- **Attempts that only add do so together.** -/
theorem append (h : Adds w tries u) (h' : Adds u more v) : Adds w (tries ++ more) v where
  changes := h.changes.trans h'.changes
  keeps location entry hfound := h'.keeps location entry (h.keeps location entry hfound)
  fresh location entry hfound hmissing := by
    cases hmid : u.tree.find? location with
    | some old =>
        obtain rfl := Option.some.inj ((h'.keeps location old hmid).symm.trans hfound)
        refine (h.fresh location old hmid hmissing).imp_right (h.writtenOnce_left h' ?_)
        rw [hmid]
        exact Option.some_ne_none old
    | none =>
        exact (h'.fresh location entry hfound hmid).imp_right (h.writtenOnce_right h' hmid)
  free a ha location hwrote := by
    rcases List.mem_append.mp ha with ha | ha
    · exact h.free a ha location (h.wroteAt_earlier ha h'.changes hwrote).1
    · have hmid := h'.free a ha location hwrote
      cases hfound : w.tree.find? location with
      | none => rfl
      | some entry =>
          rw [h.keeps location entry hfound] at hmid
          cases hmid
  there a ha hwritten := by
    rcases List.mem_append.mp ha with ha | ha
    · obtain ⟨place, hleads, hthere⟩ := h.there a ha hwritten
      refine ⟨place, h'.changes.lookup (Or.inl rfl) hleads, ?_⟩
      cases hfound : u.tree.find? place with
      | none => exact absurd hfound hthere
      | some entry =>
          rw [h'.keeps place entry hfound]
          exact Option.some_ne_none entry
    · exact h'.there a ha hwritten

/-- Only free places were touched. -/
theorem preserves (h : Adds w tries v) : w.Changes (fun location => w.tree.find? location = none) v where
  cwd := h.changes.cwd
  grown := h.changes.grown
  files location hthere content := by
    constructor
    · intro hfile
      cases hfound : w.tree.find? location with
      | none => exact absurd hfound hthere
      | some entry => rw [← h.keeps location entry hfound, hfile]
    · exact h.keeps location (.file content)

end Adds

/-- An attempt that wrote to a free place only adds. -/
theorem adds_of_written (hresult : a.result = .ok .written) (hleads : a.file.LeadsTo v location)
    (hfile : v.tree.find? location = some (.file a.file.content.toUTF8))
    (hchanges : w.Changes (fun place => place = location) v)
    (hfree : w.tree.find? location = none) : Adds w [a] v := by
  refine ⟨hchanges.mono fun _ _ => True.intro, ?_, ?_, ?_, ?_⟩
  · intro place entry
    exact hchanges.keeps fun _ htouched => htouched ▸ hfree
  · intro place entry hfound hmissing
    by_cases hplace : place = location
    · subst hplace
      obtain rfl := Option.some.inj (hfound.symm.trans hfile)
      exact Or.inr ⟨[], a, [], rfl, ⟨hresult, hleads⟩, rfl, fun b hb => by cases hb⟩
    · exact Or.inl (hchanges.fresh hplace hmissing hfound)
  · intro b hb place hwrote
    rw [List.mem_singleton.mp hb] at hwrote
    have heq := hleads.symm.trans hwrote.2
    cases heq
    exact hfree
  · intro b hb hwritten
    rw [List.mem_singleton.mp hb]
    refine ⟨location, hleads, ?_⟩
    rw [hfile]
    exact Option.some_ne_none _

/-- An attempt that may not replace a file only adds, if the path of the file goes up only from what
exists. -/
theorem adds_of_write (hkeep : a.file.overwrite = .ifMissing)
    (hground : Grounded w.tree w.cwd a.file.path)
    (h : (a.file.write : Session (Except Failure Written)) w = (a.result, v)) : Adds w [a] v := by
  have hattempt := OutputFile.attempt_of_write h
  have hquiet : w.Changes (fun _ => False) v → a.result ≠ .ok .written → Adds w [a] v :=
    fun quiet hnone => .of_quiet quiet fun b hb => by
      rw [List.mem_singleton.mp hb]
      exact hnone
  cases hresult : a.result with
  | error failure =>
      rw [hresult] at hattempt
      cases hattempt with
      | failed quiet => exact hquiet quiet (by simp [hresult])
  | ok done =>
      rw [hresult] at hattempt h
      cases hattempt with
      | skipped kept there quiet => exact hquiet quiet (by simp [hresult])
      | written there file changes =>
          exact adds_of_written hresult there file changes
            (OutputFile.free_of_write hkeep hground h there)

theorem Trail.adds (h : Trail w tries v) (hkeep : ∀ a ∈ tries, a.file.overwrite = .ifMissing)
    (hground : ∀ a ∈ tries, Grounded w.tree w.cwd a.file.path) : Adds w tries v := by
  induction h with
  | nil still => exact .of_quiet still.changes (by simp)
  | @cons w u x v a tries still wrote rest ih =>
      have hstill : Adds w [] u := .of_quiet still.changes (by simp)
      have hground' : ∀ b ∈ a :: tries, Grounded u.tree u.cwd b.file.path := by
        rw [still.tree, still.cwd]
        exact hground
      have hfirst : Adds u [a] x :=
        adds_of_write (hkeep a List.mem_cons_self) (hground' a List.mem_cons_self) wrote
      have hwhole := hstill.append hfirst
      refine hwhole.append (ih ?_ ?_)
      · exact fun b hb => hkeep b (List.mem_cons_of_mem a hb)
      · intro b hb
        rw [hfirst.changes.cwd]
        exact (hground' b (List.mem_cons_of_mem a hb)).mono hfirst.changes.grown

/-! ### Runs that only add -/

/-- The files of a run that is not told to replace files are not replaced. -/
theorem overwrite_of_mem_files {r : Request} {f : OutputFile} (hkeep : o.force = false)
    (hf : f ∈ r.files o) : f.overwrite = .ifMissing := by
  rw [Request.files_eq] at hf
  obtain ⟨unit, -, rfl⟩ := List.mem_map.mp hf
  rw [Request.file, GenerateOptions.overwrite, hkeep]
  rfl

theorem Part.Ran.adds {part : Part} (h : part.Ran o w v) (hkeep : o.force = false)
    (houtput : ∀ folder ∈ o.output, Grounded w.tree w.cwd folder) : Adds w part.tries v := by
  refine h.trail.adds ?_ ?_
  · intro a ha
    obtain ⟨r, -, hfile⟩ := h.request_of_mem_tries ha
    exact overwrite_of_mem_files hkeep hfile
  · intro a ha
    obtain ⟨r, hr, hfile⟩ := h.request_of_mem_tries ha
    exact grounded_of_mem_files houtput hr hfile

theorem Course.adds {parts : List Part} (h : Course o w parts v) (hkeep : o.force = false)
    (houtput : ∀ folder ∈ o.output, Grounded w.tree w.cwd folder) :
    Adds w (parts.flatMap Part.tries) v := by
  induction h with
  | nil w => exact .of_quiet (World.Changes.refl w) (by simp)
  | @cons w u v part parts ran rest ih =>
      have hfirst := ran.adds hkeep houtput
      refine hfirst.append (ih ?_)
      intro folder hfolder
      rw [hfirst.changes.cwd]
      exact (houtput folder hfolder).mono hfirst.changes.grown

/-- A run that is not told to replace files only adds, and what it adds it was asked for. -/
theorem adds_of_generate (o : GenerateOptions) (paths : List Path) (w : World)
    (hkeep : o.force = false) (houtput : ∀ folder ∈ o.output, Grounded w.tree w.cwd folder) :
    let run := (generate o paths : Session GenerationReport) w
    ∃ trail, Trail w trail run.2 ∧ (trail.map Try.file).Sublist (requestedFiles o paths w) ∧
      Adds w trail run.2 := by
  intro run
  cases hdry : o.dryRun with
  | true =>
      have hstill : w.Still run.2 := onlyLogs_runAll hdry paths w
      exact ⟨[], .nil hstill, List.nil_sublist _, .of_quiet hstill.changes (by simp)⟩
  | false =>
      obtain ⟨parts, hcourse, -, hrequests, -⟩ := course_of_runAll hdry paths w
      refine ⟨parts.flatMap Part.tries, hcourse.trail, ?_, hcourse.adds hkeep houtput⟩
      rw [requestedFiles, ← hrequests]
      exact hcourse.files_sublist

/-- **A run that is not told to replace files replaces none**, as long as the output directory that
is given goes up only from what exists.  Whatever stood in the tree stands there afterwards, a file
with the same content.  What is new is a directory, or a file that one attempt of the run wrote and no
other one; it has the content of that attempt's file, which the run was asked for, and the path of
the file leads there. -/
theorem generate_replaces_nothing (o : GenerateOptions) (paths : List Path) (w : World)
    (hkeep : o.force = false) (houtput : ∀ folder ∈ o.output, Grounded w.tree w.cwd folder) :
    let run := (generate o paths : Session GenerationReport) w
    (∀ location entry, w.tree.find? location = some entry →
      run.2.tree.find? location = some entry) ∧
      ∃ trail, Trail w trail run.2 ∧
        (trail.map Try.file).Sublist (requestedFiles o paths w) ∧
        ∀ location entry, run.2.tree.find? location = some entry →
          w.tree.find? location = none →
            entry = .directory ∨ WrittenOnce trail run.2 location entry := by
  intro run
  obtain ⟨trail, htrail, hasked, hadds⟩ := adds_of_generate o paths w hkeep houtput
  exact ⟨hadds.keeps, trail, htrail, hasked, hadds.fresh⟩

/-! ### An output directory that goes up -/

/-- A declaration file and a use case that was written by hand. -/
def handmade : World :=
  worldOf
    [ ([], "a_repository.dart", .file "Future<void> get();\nFuture<void> put();\n".toUTF8),
      ([], "get_use_case.dart", .file "by hand".toUTF8), ([], "lib", .directory) ]

/-- Use cases go to the output directory, and files there are not replaced. -/
def keepingOptions (output : Path) : GenerateOptions :=
  ⟨.simple, "shop", some "Cart", "core/error/failures.dart", some output, false, false⟩

theorem generate_handmade_replaces_nothing :
    (keepingOptions "lib/..").force = false ∧
      (∀ folder ∈ (keepingOptions "lib/..").output,
        Grounded handmade.tree handmade.cwd folder) ∧
      let run :=
        (generate (keepingOptions "lib/..") ["a_repository.dart"] : Session GenerationReport) handmade
      (∀ location entry, handmade.tree.find? location = some entry →
        run.2.tree.find? location = some entry) ∧
        ∃ trail, Trail handmade trail run.2 ∧
          (trail.map Try.file).Sublist
            (requestedFiles (keepingOptions "lib/..") ["a_repository.dart"] handmade) ∧
          ∀ location entry, run.2.tree.find? location = some entry →
            handmade.tree.find? location = none →
              entry = .directory ∨ WrittenOnce trail run.2 location entry := by
  have houtput : ∀ folder ∈ (keepingOptions "lib/..").output,
      Grounded handmade.tree handmade.cwd folder := by
    decide +kernel
  exact ⟨rfl, houtput,
    generate_replaces_nothing (keepingOptions "lib/..") ["a_repository.dart"] handmade rfl houtput⟩

/-- An output directory that goes up from a missing directory: the use case that was written by hand
is replaced. -/
theorem climbing_output_replaces_file :
    (keepingOptions "new/..").force = false ∧
      handmade.read "get_use_case.dart" = .ok "by hand".toUTF8 ∧
      let run :=
        (generate (keepingOptions "new/..") ["a_repository.dart"] : Session GenerationReport) handmade
      run.2.read "get_use_case.dart" ≠ .ok "by hand".toUTF8 := by
  decide +kernel

end UseCases.Project
