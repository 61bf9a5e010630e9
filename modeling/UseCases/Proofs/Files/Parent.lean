/-
The parent of a path.

The parent of a path has the steps of the path but for the last one, and its text is a shorter
beginning of the text of the path.  So whatever makes a path sound makes its parent sound, and going
from parent to parent ends.
-/
import UseCases.Proofs.Files.Path

namespace UseCases.Files

variable {cwd : Location} {p q : Path} {pieces before : List (List Char)}

/-- The steps among some pieces of a path. -/
def stepsOf (pieces : List (List Char)) : List String :=
  (pieces.map String.ofList).filter isStep

theorem steps_eq (p : Path) : p.steps = stepsOf p.pieces := rfl

theorem stepsOf_reverse (pieces : List (List Char)) :
    stepsOf pieces.reverse = (stepsOf pieces).reverse := by
  rw [stepsOf, List.map_reverse, List.filter_reverse]
  rfl

/-- A component is a step, unless it is a dot before all others. -/
theorem isStep_of_isComponent {piece : List Char} (h : Path.isComponent piece before = true) :
    isStep (String.ofList piece) = true ∨ piece = ['.'] ∧ before = [] := by
  rw [Path.isComponent, Bool.and_eq_true, Bool.or_eq_true, bne_iff_ne, List.isEmpty_iff] at h
  have hpiece : ∀ text : String, String.ofList piece = text → piece = text.toList := by
    rintro text rfl
    exact String.toList_ofList.symm
  by_cases hdot : piece = ['.']
  · exact Or.inr ⟨hdot, h.2.resolve_left fun hne => hne hdot⟩
  · refine Or.inl ?_
    rw [isStep, Bool.and_eq_true, bne_iff_ne, bne_iff_ne]
    refine ⟨fun hempty => ?_, fun hname => hdot (hpiece "." hname)⟩
    rw [hpiece "" hempty] at h
    cases h.1

theorem stepsOf_fromComponent (reversed : List (List Char)) :
    stepsOf (Path.fromComponent reversed) = stepsOf reversed := by
  induction reversed with
  | nil => rfl
  | cons piece before ih =>
      rw [Path.fromComponent]
      split
      · rfl
      · rename_i hcomponent
        have hskip : ¬isStep (String.ofList piece) = true := by
          intro hstep
          refine hcomponent ?_
          rw [isStep, Bool.and_eq_true, bne_iff_ne, bne_iff_ne] at hstep
          rw [Path.isComponent, Bool.and_eq_true, Bool.or_eq_true, bne_iff_ne]
          constructor
          · cases piece with
            | nil => exact absurd rfl hstep.1
            | cons c cs => rfl
          · left
            rintro rfl
            exact hstep.2 rfl
        rw [ih, stepsOf, stepsOf, List.map_cons, List.filter_cons_of_neg hskip]

theorem isComponent_of_fromComponent {reversed : List (List Char)} {piece : List Char}
    (h : Path.fromComponent reversed = piece :: before) :
    Path.isComponent piece before = true := by
  induction reversed with
  | nil => cases h
  | cons first rest ih =>
      rw [Path.fromComponent] at h
      split at h
      · rename_i hcomponent
        cases h
        exact hcomponent
      · exact ih h

/-- The parent is written with the components before the last one. -/
theorem parent?_eq_some (h : p.parent? = some q) : ∃ last before,
    Path.fromComponent p.pieces.reverse = last :: before ∧
      q = Path.ofPieces p.isAbsolute (Path.fromComponent before).reverse := by
  unfold Path.parent? at h
  split at h
  · cases h
  · rename_i last before hcomponents
    exact ⟨last, before, hcomponents, (Option.some.inj h).symm⟩

/-- The pieces of the parent, if it has components, are a beginning of those of the path. -/
theorem parent?_pieces {last : List Char}
    (h : Path.fromComponent p.pieces.reverse = last :: before) :
    (Path.fromComponent before).reverse <+: p.pieces ∧
      ((Path.fromComponent before).reverse ≠ [] →
        Path.pieces (Path.ofPieces p.isAbsolute (Path.fromComponent before).reverse) =
          (Path.fromComponent before).reverse) := by
  have hkept : (Path.fromComponent before).reverse <+: p.pieces := by
    rw [← List.reverse_suffix, List.reverse_reverse]
    refine (fromComponent_suffix before).trans ((List.suffix_cons last before).trans ?_)
    rw [← h]
    exact fromComponent_suffix _
  refine ⟨hkept, fun hne => ?_⟩
  rw [Path.ofPieces, if_neg (by simpa using hne)]
  exact pieces_join hne fun piece hpiece => slash_notMem_pieces (hkept.subset hpiece)

theorem steps_ofPieces_nil (absolute : Bool) : Path.steps (Path.ofPieces absolute []) = [] := by
  cases absolute <;> rfl

/-- **The parent has all steps but the last one.** -/
theorem steps_of_parent? (h : p.parent? = some q) : q.steps = p.steps.dropLast := by
  obtain ⟨last, before, hcomponents, rfl⟩ := parent?_eq_some h
  have hq : Path.steps (Path.ofPieces p.isAbsolute (Path.fromComponent before).reverse) =
      (stepsOf before).reverse := by
    by_cases hnone : (Path.fromComponent before).reverse = []
    · rw [hnone, steps_ofPieces_nil, ← stepsOf_fromComponent, List.reverse_eq_nil_iff.mp hnone]
      rfl
    · rw [steps_eq, (parent?_pieces hcomponents).2 hnone, stepsOf_reverse, stepsOf_fromComponent]
  have hp : p.steps = (stepsOf (last :: before)).reverse := by
    rw [← hcomponents, stepsOf_fromComponent, ← stepsOf_reverse, List.reverse_reverse, steps_eq]
  rw [hq, hp]
  rcases isStep_of_isComponent (isComponent_of_fromComponent hcomponents) with
    hstep | ⟨rfl, rfl⟩
  · have hlast : stepsOf (last :: before) = String.ofList last :: stepsOf before := by
      rw [stepsOf, List.map_cons, List.filter_cons_of_pos hstep]
      rfl
    rw [hlast, List.reverse_cons, List.dropLast_concat]
  · rfl

/-- A path without a parent has no step. -/
theorem steps_of_parent?_none (h : p.parent? = none) : p.steps = [] := by
  have hcomponents : Path.fromComponent p.pieces.reverse = [] := by
    unfold Path.parent? at h
    split at h
    · assumption
    · cases h
  have hsteps := stepsOf_fromComponent p.pieces.reverse
  rw [hcomponents, stepsOf_reverse, ← steps_eq] at hsteps
  exact List.reverse_eq_nil_iff.mp hsteps.symm

/-- The path ends in its last step, if it has one. -/
def Path.EndsInStep (p : Path) : Prop :=
  p.steps = [] ∨ ∃ front name, pathPieces p = front ++ [name] ∧ isStep name = true

/-- The parent ends in its last step. -/
theorem endsInStep_of_parent? (h : p.parent? = some q) : q.EndsInStep := by
  obtain ⟨last, before, hcomponents, rfl⟩ := parent?_eq_some h
  cases hkept : Path.fromComponent before with
  | nil => exact Or.inl (steps_ofPieces_nil _)
  | cons piece rest =>
      have hpieces := (parent?_pieces hcomponents).2 (by rw [hkept]; simp)
      rw [hkept, List.reverse_cons] at hpieces
      rcases isStep_of_isComponent (isComponent_of_fromComponent hkept) with hstep | ⟨rfl, rfl⟩
      · refine Or.inr ⟨rest.reverse.map String.ofList, String.ofList piece, ?_, hstep⟩
        rw [pathPieces, List.reverse_cons, hpieces, List.map_append, List.map_singleton]
      · refine Or.inl ?_
        rw [steps_eq, List.reverse_cons, hpieces]
        rfl

theorem toList_join_pieces (p : Path) :
    (Text.join "/" (p.pieces.map String.ofList)).toList = p.toList :=
  Text.toList_join_splitAt rfl p.toList

/-- A path is not its own parent: it has a component more. -/
theorem parent?_ne_self (h : p.parent? = some q) : q ≠ p := by
  rintro rfl
  obtain ⟨last, before, hcomponents, hself⟩ := parent?_eq_some h
  by_cases hnone : (Path.fromComponent before).reverse = []
  · rw [hnone] at hself
    cases habsolute : q.isAbsolute <;> rw [habsolute] at hself <;> rw [hself] at h <;> cases h
  · have hpieces := (parent?_pieces hcomponents).2 hnone
    rw [← hself] at hpieces
    have hlength := (fromComponent_suffix q.pieces.reverse).length_le
    rw [hcomponents, hpieces, List.reverse_reverse, List.length_cons] at hlength
    exact absurd (fromComponent_suffix before).length_le (Nat.not_le.mpr hlength)

/-- **The text of the parent is a shorter beginning of the text of the path.** -/
theorem toList_of_parent? (h : p.parent? = some q) :
    q.toList <+: p.toList ∧ q.toList.length < p.toList.length := by
  have hstem : q.toList <+: p.toList := by
    obtain ⟨last, before, hcomponents, rfl⟩ := parent?_eq_some h
    obtain ⟨hkept, -⟩ := parent?_pieces hcomponents
    rw [Path.ofPieces]
    by_cases hnone : (Path.fromComponent before).reverse = []
    · rw [hnone, List.isEmpty_nil, if_pos rfl]
      split
      · rename_i habsolute
        rw [Path.isAbsolute, beq_iff_eq, List.head?_eq_some_iff] at habsolute
        obtain ⟨rest, hrest⟩ := habsolute
        exact ⟨rest, hrest.symm⟩
      · exact List.nil_prefix
    · obtain ⟨more, hmore⟩ := hkept
      rw [if_neg (by simpa using hnone), ← toList_join_pieces p, ← hmore, List.map_append]
      exact Text.toList_join_prefix "/" (by simpa using hnone) _
  refine ⟨hstem, Nat.lt_of_le_of_ne hstem.length_le fun hlength => ?_⟩
  exact parent?_ne_self h (String.toList_inj.mp (hstem.eq_of_length hlength))

end UseCases.Files
