/-
What writing a file does.

Every attempt ends in one of three ways: the file is written, and then its path leads to it; it is
skipped, because its path leads somewhere already; or it fails.  Only a file that is written
changes.
-/
import UseCases.Project.OutputFile
import UseCases.Proofs.Files.Ground
import UseCases.Proofs.Files.Session

namespace UseCases.Project

open Files

namespace OutputFile

variable {f : OutputFile} {w v x : World} {result : Except Failure Written}

/-! ### Properties of writing -/

section Composes

variable {holds : ∀ {α : Type}, Session α → Prop} (h : Composes holds)
include h

theorem holds_prepare (hmake : ∀ parent ∈ f.path.parent?, holds (makeDirectories parent)) :
    holds f.prepare := by
  unfold prepare
  split
  · exact h.pure _
  · rename_i parent hparent
    refine h.bind (hmake parent hparent) fun result => ?_
    split <;> exact h.pure _

theorem holds_store (hprepare : holds f.prepare)
    (hwrite : holds (Host.write f.path f.content.toUTF8)) : holds f.store := by
  refine h.bind hprepare fun prepared => ?_
  split
  · exact h.pure _
  · refine h.bind hwrite fun written => ?_
    split <;> exact h.pure _

theorem holds_write (hkind : holds (Host.kind? f.path))
    (hlog : ∀ record, holds (Host.log record)) (hstore : holds f.store) : holds f.write := by
  have hkept : holds f.isKept := by
    unfold isKept
    split
    · exact h.pure _
    · exact holds_pathExists h hkind
  refine h.bind hkept fun kept => ?_
  split
  · exact h.bind (hlog _) fun _ => h.pure _
  · refine h.bind hstore fun stored => ?_
    split
    · exact h.pure _
    · exact h.bind (hlog _) fun _ => h.pure _

end Composes

theorem quiet_prepare (f : OutputFile) : Quiet f.prepare :=
  holds_prepare composes_quiet fun parent _ => quiet_makeDirectories parent

/-! ### Attempts -/

/-- What an attempt to write a file comes to. -/
inductive Attempt (f : OutputFile) (w v : World) : Except Failure Written → Prop where
  | skipped {location : Location} (kept : f.overwrite = .ifMissing)
      (there : v.target f.path = .found location) (quiet : w.Changes (fun _ => False) v) :
      Attempt f w v (.ok .skipped)
  | written {location : Location} (there : v.target f.path = .found location)
      (file : v.tree.find? location = some (.file f.content.toUTF8))
      (changes : w.Changes (· = location) v) : Attempt f w v (.ok .written)
  | failed {failure : Failure} (quiet : w.Changes (fun _ => False) v) :
      Attempt f w v (.error failure)

theorem Attempt.changes (h : Attempt f w v result) : w.Changes (fun _ => True) v := by
  cases h with
  | skipped kept there quiet => exact quiet.of_none
  | written there file changes => exact changes.mono fun _ _ => True.intro
  | failed quiet => exact quiet.of_none

/-- A file is kept if it may be kept and its path leads somewhere. -/
theorem isKept_cases {kept : Bool} (h : (f.isKept : Session Bool) w = (kept, v)) :
    v = w ∧ (kept = true →
      f.overwrite = .ifMissing ∧ ∃ location, w.target f.path = .found location) := by
  unfold isKept at h
  cases hoverwrite : f.overwrite with
  | always =>
      rw [hoverwrite] at h
      cases h
      exact ⟨rfl, fun hkept => by cases hkept⟩
  | ifMissing =>
      rw [hoverwrite] at h
      cases h
      exact ⟨rfl, fun hkept => ⟨rfl, World.target_of_kind? hkept⟩⟩

/-- Storing a file writes it or fails. -/
theorem store_cases {result : Except Failure Unit}
    (h : (f.store : Session (Except Failure Unit)) w = (result, v)) :
    (∃ failure, result = .error failure ∧ w.Changes (fun _ => False) v) ∨
      ∃ location, result = .ok () ∧ v.target f.path = .found location ∧
        v.tree.find? location = some (.file f.content.toUTF8) ∧ w.Changes (· = location) v := by
  obtain ⟨prepared, u, hprepare, h⟩ := session_bind_cases h
  have hquiet := (quiet_prepare f).changes hprepare
  cases prepared with
  | error failure =>
      cases h
      exact Or.inl ⟨failure, rfl, hquiet⟩
  | ok _ =>
      obtain ⟨stored, y, hwrite, h⟩ := session_bind_cases h
      replace hwrite : changeWorld (fun w => w.write f.path f.content.toUTF8) u = (stored, y) :=
        hwrite
      unfold changeWorld at hwrite
      split at hwrite
      · rename_i after hafter
        cases hwrite
        cases h
        obtain ⟨location, hfound, hfile, hchanges⟩ := World.write_ok hafter
        have htarget : v.target f.path = .found location :=
          lookup_extends (Tree.Extends.refl v.tree) (Or.inr ⟨rfl, rfl⟩) hfound
        exact Or.inr ⟨location, rfl, htarget, hfile,
          hquiet.of_none.trans hchanges⟩
      · cases hwrite
        cases h
        exact Or.inl ⟨_, rfl, hquiet⟩

/-- **An attempt writes the file, skips it, or fails.** -/
theorem attempt_of_write (h : (f.write : Session (Except Failure Written)) w = (result, v)) :
    Attempt f w v result := by
  obtain ⟨kept, u, hkept, h⟩ := session_bind_cases h
  obtain ⟨rfl, hthere⟩ := isKept_cases hkept
  cases kept with
  | true =>
      obtain ⟨hmissing, location, hfound⟩ := hthere rfl
      obtain ⟨_, y, hlog, h⟩ := session_bind_cases h
      have hquiet := (onlyLogs_log _).quiet.changes hlog
      cases h
      exact .skipped hmissing (hquiet.lookup (Or.inl rfl) hfound) hquiet
  | false =>
      obtain ⟨stored, y, hstore, h⟩ := session_bind_cases h
      rcases store_cases hstore with
        ⟨failure, rfl, hquiet⟩ | ⟨location, rfl, hfound, hfile, hchanges⟩
      · cases h
        exact .failed hquiet
      · obtain ⟨_, z, hlog, h⟩ := session_bind_cases h
        have hquiet := (onlyLogs_log _).quiet.changes hlog
        cases h
        refine .written (hquiet.lookup (Or.inl rfl) hfound) ?_
          (hchanges.trans hquiet.of_none)
        exact ((hquiet.files location id) _).mpr hfile

/-! ### Files that are not replaced -/

/-- Preparing makes no directory, unless one was missing on the way to the file. -/
theorem prepare_cases (h : (f.prepare : Session (Except Failure Unit)) w = (.ok (), v)) :
    w.Still v ∨ ∃ q : Path, q.isAbsolute = f.path.isAbsolute ∧ q.steps <+: f.path.steps ∧
      ∃ directory name, lookup w.tree w.cwd .entry q = .absent directory name := by
  unfold prepare at h
  cases hparent : f.path.parent? with
  | none =>
      rw [hparent] at h
      exact Or.inl ((onlyLogs_pure _).still h)
  | some parent =>
      rw [hparent] at h
      obtain ⟨result, u, hmade, hafter⟩ := session_bind_cases h
      cases result with
      | error e => cases hafter
      | ok _ =>
          cases hafter
          rcases makeLineage_cases hmade with hstill | ⟨q, hq, habsent⟩
          · exact Or.inl hstill
          · obtain ⟨hstart, hsteps⟩ := ancestors_steps hq
            obtain ⟨hstart', hsteps'⟩ := parent?_steps hparent
            exact Or.inr ⟨q, hstart.trans hstart', hsteps.trans hsteps', habsent⟩

/-- A file is stored in a free place, or replaces a file that was there for its path to lead to. -/
theorem store_place (hground : Grounded w.tree w.cwd f.path)
    (h : (f.store : Session (Except Failure Unit)) w = (.ok (), v)) {place : Location}
    (hplace : destination w.tree w.cwd f.path = some place) :
    w.tree.find? place = none ∨ ∃ kind, w.kind? f.path = some kind := by
  obtain ⟨prepared, u, hprepare, hstored⟩ := session_bind_cases h
  have hquiet := (quiet_prepare f).changes hprepare
  cases prepared with
  | error failure => cases hstored
  | ok _ =>
      obtain ⟨written, x, hwrite, hafter⟩ := session_bind_cases hstored
      cases written with
      | error e => cases hafter
      | ok _ =>
          rcases World.write_cases (changeWorld_ok hwrite) with ⟨directory, name, habsent⟩ | hkind
          · left
            have hfree := (World.isFree_of_absent habsent).missing
            have hnew := destination_of_absent habsent
            rw [hquiet.cwd, destination_extends hquiet.grown, hplace] at hnew
            obtain rfl := Option.some.inj hnew
            cases hfound : w.tree.find? (directory ++ [name]) with
            | none => rfl
            | some entry =>
                rw [hquiet.keeps (fun _ hfalse => hfalse.elim) hfound] at hfree
                cases hfree
          · rcases prepare_cases hprepare with
              hstill | ⟨q, hstart, hsteps, directory, name, habsent⟩
            · exact Or.inr ⟨.file, (hstill.kind? f.path).symm.trans hkind⟩
            · left
              have hfree := (World.isFree_of_absent habsent).missing
              obtain ⟨missing, hmissing, hnothing⟩ := hground.destination_missing hstart hsteps
                (destination_of_absent habsent) hfree
              obtain rfl := Option.some.inj (hplace.symm.trans hmissing)
              exact hnothing

/-- **A file that may not replace anything is written in a free place**, if its path goes up only
from what exists. -/
theorem free_of_write (hkeep : f.overwrite = .ifMissing)
    (hground : Grounded w.tree w.cwd f.path)
    (h : (f.write : Session (Except Failure Written)) w = (.ok .written, v)) {place : Location}
    (hplace : v.target f.path = .found place) : w.tree.find? place = none := by
  have hchanges := (attempt_of_write h).changes
  have hdestination : destination w.tree w.cwd f.path = some place := by
    refine destination_of_lookup hchanges.grown (show Purpose.target ≠ .entry by decide) ?_
    rw [← hchanges.cwd]
    exact hplace
  obtain ⟨kept, u, hkept, hafter⟩ := session_bind_cases h
  rw [isKept, hkeep] at hkept
  obtain ⟨hthere, hsame⟩ := Prod.mk.inj hkept
  subst hsame
  cases kept with
  | true => cases hafter
  | false =>
      obtain ⟨stored, x, hstore, hlogged⟩ := session_bind_cases hafter
      cases stored with
      | error failure => cases hlogged
      | ok _ =>
          rcases store_place hground hstore hdestination with hfree | ⟨kind, hkind⟩
          · exact hfree
          · rw [hkind] at hthere
            cases hthere

end OutputFile

end UseCases.Project
