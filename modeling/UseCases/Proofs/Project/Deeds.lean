/-
The deeds of a run.

A run attempts to write one file after the other.  Its deeds are the attempts that did not fail,
and whatever happens between them writes no file.  If no two deeds lead to one place, each of them
is still in effect when the run ends: a file that was written has its content, and one that was
skipped is as it was before the run.
-/
import Mathlib.Data.List.Pairwise
import UseCases.Project.Generate
import UseCases.Proofs.Project.OutputFile

namespace UseCases.Project

open Files Report

/-- What was done with which file. -/
structure Deed where
  file : OutputFile
  done : Written

/-- How a report tells of the deed. -/
def Deed.outcome (d : Deed) : UnitOutcome :=
  match d.done with
  | .written => ⟨d.file.path, .written⟩
  | .skipped => ⟨d.file.path, .skipped⟩

/-- The second world is the first one after these deeds. -/
inductive Deeds : World → List Deed → World → Prop
  | nil {w v : World} (quiet : w.Changes (fun _ => False) v) : Deeds w [] v
  | cons {w u v : World} {d : Deed} {deeds : List Deed}
      (attempt : OutputFile.Attempt d.file w u (.ok d.done)) (rest : Deeds u deeds v) :
      Deeds w (d :: deeds) v

/-- The path of the file leads to a location of the world. -/
def OutputFile.LeadsTo (f : OutputFile) (w : World) (location : Location) : Prop :=
  w.target f.path = .found location

/-- The paths of the files do not lead to the same place. -/
def OutputFile.Apart (w : World) (f g : OutputFile) : Prop :=
  ∀ location, f.LeadsTo w location → ¬g.LeadsTo w location

instance (w : World) : Std.Symm (OutputFile.Apart w) where
  symm _ _ h location hg hf := h location hf hg

/-- The same file stands at `place` in both worlds, or in neither. -/
def SameFile (place : Location) (w v : World) : Prop :=
  ∀ content, v.tree.find? place = some (.file content) ↔ w.tree.find? place = some (.file content)

/-- What the deed did to `place` between two worlds is still so in the second: a file that was
written has its content, and one that was skipped has the content it had in the first. -/
def Deed.InEffect (w v : World) (d : Deed) (place : Location) : Prop :=
  match d.done with
  | .written => v.tree.find? place = some (.file d.file.content.toUTF8)
  | .skipped => SameFile place w v

variable {w u v : World} {d : Deed} {deeds : List Deed}

theorem Deed.outcome_path (d : Deed) : d.outcome.path = d.file.path := by
  obtain ⟨file, done⟩ := d
  cases done <;> rfl

theorem Deed.outcome_status (d : Deed) :
    d.outcome.status = .written ∧ d.done = .written ∨
      d.outcome.status = .skipped ∧ d.done = .skipped := by
  obtain ⟨file, done⟩ := d
  cases done with
  | written => exact Or.inl ⟨rfl, rfl⟩
  | skipped => exact Or.inr ⟨rfl, rfl⟩

/-- Files that are apart have different paths, if the path of one leads somewhere. -/
theorem eq_of_path_eq {files : List OutputFile} (hapart : files.Pairwise (OutputFile.Apart w))
    {f g : OutputFile} (hf : f ∈ files) (hg : g ∈ files) {place : Location}
    (hleads : f.LeadsTo w place) (hpath : f.path = g.path) : f = g := by
  by_contra hne
  refine hapart.forall hf hg hne place hleads ?_
  rw [OutputFile.LeadsTo, ← hpath]
  exact hleads

theorem OutputFile.Attempt.after {f : OutputFile} {result : Except Failure Written}
    (hquiet : w.Changes (fun _ => False) u) (h : OutputFile.Attempt f u v result) :
    OutputFile.Attempt f w v result := by
  cases h with
  | skipped kept there quiet => exact .skipped kept there (hquiet.trans quiet)
  | written there file changes =>
      exact .written there file (hquiet.of_none.trans changes)
  | failed quiet => exact .failed (hquiet.trans quiet)

theorem Deed.InEffect.later {place : Location} (h : d.InEffect w u place)
    (hsame : SameFile place u v) : d.InEffect w v place := by
  obtain ⟨file, done⟩ := d
  cases done with
  | written => exact (hsame _).mpr h
  | skipped => exact fun content => (hsame content).trans (h content)

theorem Deed.InEffect.earlier {place : Location} (h : d.InEffect u v place)
    (hsame : SameFile place w u) : d.InEffect w v place := by
  obtain ⟨file, done⟩ := d
  cases done with
  | written => exact h
  | skipped => exact fun content => (h content).trans (hsame content)

/-- A deed leads to a place, in the world after it and in those that come of it.  There it is in
effect, and at most the file at this place changed. -/
theorem OutputFile.Attempt.leadsTo {touched : Location → Prop}
    (h : OutputFile.Attempt d.file w u (.ok d.done)) (hchanges : u.Changes touched v) :
    ∃ place, d.file.LeadsTo v place ∧ d.InEffect w u place ∧
      w.Changes (fun location => d.done = .written ∧ location = place) u := by
  obtain ⟨file, done⟩ := d
  cases h with
  | @skipped place kept there quiet =>
      exact ⟨place, hchanges.lookup (Or.inl rfl) there, quiet.files place id,
        quiet.of_none⟩
  | @written place there content changes =>
      exact ⟨place, hchanges.lookup (Or.inl rfl) there, content,
        changes.mono fun _ hplace => ⟨rfl, hplace⟩⟩

namespace Deeds

theorem after (hquiet : w.Changes (fun _ => False) u) (h : Deeds u deeds v) : Deeds w deeds v := by
  cases h with
  | nil quiet => exact .nil (hquiet.trans quiet)
  | cons attempt rest => exact .cons (attempt.after hquiet) rest

/-- The files that changed are those that were written. -/
theorem changes (h : Deeds w deeds v) :
    w.Changes (fun location => ∃ d ∈ deeds, d.done = .written ∧ d.file.LeadsTo v location) v := by
  induction h with
  | nil quiet => exact quiet.of_none
  | cons attempt rest ih =>
      obtain ⟨place, hleads, -, hchanges⟩ := attempt.leadsTo ih
      refine World.Changes.trans (hchanges.mono ?_) (ih.mono ?_)
      · rintro location ⟨hwritten, rfl⟩
        exact ⟨_, List.mem_cons_self, hwritten, hleads⟩
      · rintro location ⟨e, he, hwritten, hplace⟩
        exact ⟨e, List.mem_cons_of_mem _ he, hwritten, hplace⟩

/-- What stands at the place of a file is left alone by all deeds about other places. -/
theorem sameFile_of_apart {f : OutputFile} {place : Location} (h : Deeds w deeds v)
    (hleads : f.LeadsTo v place) (hapart : ∀ g ∈ deeds.map Deed.file, f.Apart v g) :
    SameFile place w v := by
  refine h.changes.files place ?_
  rintro ⟨e, he, -, hplace⟩
  exact hapart e.file (List.mem_map_of_mem he) place hleads hplace

/-- **If no two deeds are about one place, every deed is in effect at the end.** -/
theorem inEffect (h : Deeds w deeds v)
    (hapart : (deeds.map Deed.file).Pairwise (OutputFile.Apart v)) :
    ∀ d ∈ deeds, ∃ place, d.file.LeadsTo v place ∧ d.InEffect w v place := by
  induction h with
  | nil quiet =>
      intro d hd
      cases hd
  | @cons w u v d deeds attempt rest ih =>
      rw [List.map_cons, List.pairwise_cons] at hapart
      obtain ⟨place, hleads, heffect, hchanges⟩ := attempt.leadsTo rest.changes
      intro e he
      rcases List.mem_cons.mp he with rfl | he
      · exact ⟨place, hleads, heffect.later (rest.sameFile_of_apart hleads hapart.1)⟩
      · obtain ⟨place', hleads', heffect'⟩ := ih hapart.2 e he
        have hne : place' ≠ place := by
          intro hplace
          exact hapart.1 e.file (List.mem_map_of_mem he) place hleads (hplace ▸ hleads')
        have hsame : SameFile place' w u := hchanges.files place' fun hwritten => hne hwritten.2
        exact ⟨place', hleads', heffect'.earlier hsame⟩

/-- Deeds about different places are about different paths. -/
theorem nodup_paths (h : Deeds w deeds v)
    (hapart : (deeds.map Deed.file).Pairwise (OutputFile.Apart v)) :
    (deeds.map fun d => d.file.path).Nodup := by
  have hplace := h.inEffect hapart
  rw [List.pairwise_map] at hapart
  rw [List.Nodup, List.pairwise_map]
  refine hapart.imp_of_mem ?_
  intro d e hd _ hde hpath
  obtain ⟨place, hleads, -⟩ := hplace d hd
  refine hde place hleads ?_
  rw [OutputFile.LeadsTo, ← hpath]
  exact hleads

end Deeds

end UseCases.Project
