/-
The trail of a run.

A run attempts to write one file after the other, and between two attempts it only logs.  Its trail
is the list of the attempts with their results.  The deeds of the run are the attempts that did not
fail.
-/
import UseCases.Proofs.Project.Deeds

namespace UseCases.Project

open Files Report

/-- An attempt to write a file, and what came of it. -/
structure Try where
  file : OutputFile
  result : Except Failure Written

namespace Try

/-- The deed that the attempt came to. -/
def deed? (a : Try) : Option Deed :=
  match a.result with
  | .ok done => some ⟨a.file, done⟩
  | .error _ => none

/-- How a report tells of the attempt. -/
def outcome? (a : Try) : Option UnitOutcome :=
  a.deed?.map Deed.outcome

/-- The attempt wrote its file, whose path leads to the location. -/
def WroteAt (a : Try) (w : World) (location : Location) : Prop :=
  a.result = .ok .written ∧ a.file.LeadsTo w location

end Try

/-- The second world is the first one after these attempts, each of which had this result. -/
inductive Trail : World → List Try → World → Prop
  | nil {w v : World} (still : w.Still v) : Trail w [] v
  | cons {w u x v : World} {a : Try} {tries : List Try} (still : w.Still u)
      (wrote : (a.file.write : Session (Except Failure Written)) u = (a.result, x))
      (rest : Trail x tries v) : Trail w (a :: tries) v

variable {w u v : World} {a : Try} {tries more : List Try} {place location : Location}

theorem Try.deed?_file {d : Deed} (h : a.deed? = some d) : d.file = a.file := by
  unfold Try.deed? at h
  split at h
  · rw [← Option.some.inj h]
  · cases h

/-- The files of the deeds are files of the attempts. -/
theorem deeds_files_sublist (tries : List Try) :
    ((tries.filterMap Try.deed?).map Deed.file).Sublist (tries.map Try.file) := by
  induction tries with
  | nil => exact List.Sublist.refl _
  | cons a tries ih =>
      rw [List.map_cons]
      cases hdeed : a.deed? with
      | none =>
          rw [List.filterMap_cons_none hdeed]
          exact ih.cons a.file
      | some d =>
          rw [List.filterMap_cons_some hdeed, List.map_cons, Try.deed?_file hdeed]
          exact ih.cons_cons a.file

theorem outcomes_of_deeds (tries : List Try) :
    (tries.filterMap Try.deed?).map Deed.outcome = tries.filterMap Try.outcome? :=
  List.map_filterMap

namespace Trail

theorem after (hstill : w.Still u) (h : Trail u tries v) : Trail w tries v := by
  cases h with
  | nil still => exact .nil (hstill.trans still)
  | cons still wrote rest => exact .cons (hstill.trans still) wrote rest

theorem append (h : Trail w tries u) (h' : Trail u more v) : Trail w (tries ++ more) v := by
  induction h with
  | nil still => exact h'.after still
  | cons still wrote rest ih => exact .cons still wrote (ih h')

/-- **The attempts of a trail that did not fail are its deeds.** -/
theorem deeds (h : Trail w tries v) : Deeds w (tries.filterMap Try.deed?) v := by
  induction h with
  | nil still => exact .nil still.changes
  | @cons w u x v a tries still wrote rest ih =>
      have hattempt := OutputFile.attempt_of_write wrote
      cases hresult : a.result with
      | error failure =>
          rw [hresult] at hattempt
          cases hattempt with
          | failed quiet =>
              rw [List.filterMap_cons_none (by rw [Try.deed?, hresult])]
              exact ih.after (still.changes.trans quiet)
      | ok done =>
          rw [hresult] at hattempt
          rw [List.filterMap_cons_some (b := ⟨a.file, done⟩) (by rw [Try.deed?, hresult])]
          exact .cons (hattempt.after still.changes) ih

/-- The files that changed are those that were written. -/
theorem changes (h : Trail w tries v) :
    w.Changes (fun location => ∃ a ∈ tries, a.WroteAt v location) v := by
  refine h.deeds.changes.mono ?_
  rintro location ⟨d, hd, hwritten, hleads⟩
  obtain ⟨a, ha, hdeed⟩ := List.mem_filterMap.mp hd
  refine ⟨a, ha, ?_, Try.deed?_file hdeed ▸ hleads⟩
  unfold Try.deed? at hdeed
  split at hdeed
  · rename_i done hresult
    obtain rfl := Option.some.inj hdeed
    rw [hresult, ← hwritten]
  · cases hdeed

end Trail

end UseCases.Project
