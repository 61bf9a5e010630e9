/-
What a walk finds.

A walk gives the ways to the regular files below a directory in one order, so what it gives depends
only on which files there are.  In a tree that grows, the files that were there are found as before,
once the new ones are passed over.
-/
import Mathlib.Data.List.Perm.Basic
import Mathlib.Data.String.Basic
import UseCases.Proofs.Files.Path
import UseCases.Proofs.Files.World

namespace UseCases.Files

/-! ### The order of a walk -/

namespace Tree

theorem precedes_cons {a b : String} {as bs : Location} :
    precedes (a :: as) (b :: bs) = true ↔ a < b ∨ a = b ∧ precedes as bs = true := by
  simp [precedes]

theorem precedes_total (a b : Location) : (precedes a b || precedes b a) = true := by
  rw [Bool.or_eq_true]
  induction a generalizing b with
  | nil => exact Or.inl rfl
  | cons x xs ih =>
      cases b with
      | nil => exact Or.inr rfl
      | cons y ys =>
          rw [precedes_cons, precedes_cons]
          rcases lt_trichotomy x y with hlt | rfl | hgt
          · exact Or.inl (Or.inl hlt)
          · exact (ih ys).imp (fun h => Or.inr ⟨rfl, h⟩) fun h => Or.inr ⟨rfl, h⟩
          · exact Or.inr (Or.inl hgt)

theorem precedes_trans (a b c : Location) (hab : precedes a b = true) (hbc : precedes b c = true) :
    precedes a c = true := by
  induction a generalizing b c with
  | nil => rfl
  | cons x xs ih =>
      cases b with
      | nil => cases hab
      | cons y ys =>
          cases c with
          | nil => cases hbc
          | cons z zs =>
              rw [precedes_cons] at hab hbc ⊢
              rcases hab with hxy | ⟨rfl, hxy⟩
              · rcases hbc with hyz | ⟨rfl, -⟩
                · exact Or.inl (hxy.trans hyz)
                · exact Or.inl hxy
              · exact hbc.imp_right fun h => ⟨h.1, ih ys zs hxy h.2⟩

theorem precedes_antisymm (a b : Location) (hab : precedes a b = true) (hba : precedes b a = true) :
    a = b := by
  induction a generalizing b with
  | nil =>
      cases b with
      | nil => rfl
      | cons y ys => cases hba
  | cons x xs ih =>
      cases b with
      | nil => cases hab
      | cons y ys =>
          rw [precedes_cons] at hab hba
          rcases hab with hxy | ⟨rfl, hxy⟩
          · rcases hba with hyx | ⟨rfl, -⟩
            · exact absurd hyx hxy.not_gt
            · exact absurd hxy (lt_irrefl _)
          · rcases hba with hyx | ⟨-, hyx⟩
            · exact absurd hyx (lt_irrefl _)
            · rw [ih ys hxy hyx]

/-! ### Files below a directory -/

variable {t u : Tree} {directory rest : Location}

theorem below?_eq_some {above location : Location} :
    below? above location = some rest ↔ location = above ++ rest ∧ rest ≠ [] := by
  induction above generalizing location with
  | nil =>
      cases location with
      | nil =>
          simp only [below?, List.isEmpty_nil, if_pos, List.nil_append, reduceCtorEq, false_iff]
          exact fun h => h.2 h.1.symm
      | cons l location =>
          simp only [below?, List.isEmpty_cons, Bool.false_eq_true, if_neg, not_false_eq_true,
            Option.some.injEq, List.nil_append, iff_self_and]
          rintro rfl
          exact List.cons_ne_nil l location
  | cons a above ih =>
      cases location with
      | nil => simp [below?]
      | cons l location =>
          rw [below?]
          split
          · rename_i heq
            rw [ih, heq, List.cons_append, List.cons_inj_right]
          · rename_i hne
            simp only [reduceCtorEq, List.cons_append, List.cons.injEq, false_iff]
            exact fun h => hne h.1.1.symm

/-- The way to a regular file, from a directory above it. -/
def wayFrom? (directory : Location) (p : Location × Entry) : Option Location :=
  match p.2 with
  | .file _ => below? directory p.1
  | _ => none

theorem wayFrom?_eq_some {p : Location × Entry} (h : wayFrom? directory p = some rest) :
    p.1 = directory ++ rest ∧ rest ≠ [] ∧ ∃ content, p.2 = .file content := by
  unfold wayFrom? at h
  split at h
  · rename_i content hcontent
    obtain ⟨hlocation, hne⟩ := below?_eq_some.mp h
    exact ⟨hlocation, hne, content, hcontent⟩
  · cases h

theorem filesBelow_perm (t : Tree) (directory : Location) :
    (t.filesBelow directory).Perm (t.entries.filterMap (wayFrom? directory)) :=
  List.mergeSort_perm _ _

/-- A walk finds the regular files. -/
theorem mem_filesBelow : rest ∈ t.filesBelow directory ↔
    rest ≠ [] ∧ ∃ content, t.find? (directory ++ rest) = some (.file content) := by
  rw [(t.filesBelow_perm directory).mem_iff, List.mem_filterMap]
  constructor
  · rintro ⟨p, hp, hway⟩
    obtain ⟨hlocation, hne, content, hcontent⟩ := wayFrom?_eq_some hway
    refine ⟨hne, content, ?_⟩
    rw [find?, if_neg (by simp [hne])]
    refine entryAt?_of_mem t.distinct ?_
    rw [← hlocation, ← hcontent]
    exact hp
  · rintro ⟨hne, content, hfile⟩
    rw [find?, if_neg (by simp [hne])] at hfile
    exact ⟨_, mem_of_entryAt? hfile, below?_eq_some.mpr ⟨rfl, hne⟩⟩

/-- A walk finds no file twice. -/
theorem nodup_filesBelow (t : Tree) (directory : Location) : (t.filesBelow directory).Nodup := by
  rw [(t.filesBelow_perm directory).nodup_iff, List.Nodup, List.pairwise_filterMap]
  have hdistinct := t.distinct
  rw [List.Nodup, List.pairwise_map] at hdistinct
  refine hdistinct.imp ?_
  rintro p q hne rest hp rest' hq rfl
  exact hne ((wayFrom?_eq_some hp).1.trans (wayFrom?_eq_some hq).1.symm)

theorem pairwise_filesBelow (t : Tree) (directory : Location) :
    (t.filesBelow directory).Pairwise fun a b => precedes a b = true :=
  List.pairwise_mergeSort precedes_trans precedes_total _

/-- **Walks that find the same files of some kind find them in the same order.** -/
theorem filter_filesBelow {kept : Location → Bool}
    (h : ∀ rest, kept rest = true →
      (rest ∈ t.filesBelow directory ↔ rest ∈ u.filesBelow directory)) :
    (t.filesBelow directory).filter kept = (u.filesBelow directory).filter kept := by
  refine List.Perm.eq_of_pairwise (fun a b _ _ => precedes_antisymm a b) ((t.pairwise_filesBelow directory).filter kept)
    ((u.pairwise_filesBelow directory).filter kept) ?_
  rw [List.perm_ext_iff_of_nodup ((t.nodup_filesBelow directory).filter kept)
    ((u.nodup_filesBelow directory).filter kept)]
  intro rest
  rw [List.mem_filter, List.mem_filter]
  exact and_congr_left (h rest)

end Tree

end UseCases.Files
