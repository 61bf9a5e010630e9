/-
Where a path is going to lead.

The directories that are missing on the way to a file are made when the file is written, and no
link is.  So it is known beforehand where the path of the file leads in the end: to its
destination, on the way to which whatever is missing counts as a directory.
-/
import UseCases.Proofs.Files.Path

namespace UseCases.Files

variable {t u : Tree} {purpose : Purpose} {cwd directory place : Location} {p : Path}
  {pieces rest : List String} {name : String}

/-! ### Destinations -/

/-- Follows the pieces of a path from a directory, up to the first link.  Whatever is no link counts
as a directory. -/
def descend (t : Tree) : (directory : Location) → List String → Stretch
  | directory, [] => .ended (.found directory)
  | directory, name :: rest =>
    if name = "" ∨ name = "." then descend t directory rest
    else if name = ".." then descend t directory.dropLast rest
    else
      match t.find? (directory ++ [name]) with
      | some (.link target) => .link directory target rest
      | _ => descend t (directory ++ [name]) rest

/-- Follows pieces of a path and at most `links` links. -/
def descendLinks (t : Tree) (links : Nat) (directory : Location) (pieces : List String) :
    Option Location :=
  match descend t directory pieces with
  | .ended (.found location) => some location
  | .ended _ => none
  | .link directory target rest =>
    match links with
    | 0 => none
    | links + 1 => descendLinks t links (startOf directory target) (pathPieces target ++ rest)

/-- Where a path leads from a working directory once what is missing on the way is made. -/
def destination (t : Tree) (cwd : Location) (p : Path) : Option Location :=
  descendLinks t maxLinks (startOf cwd p) (pathPieces p)

/-- No link stands at a location. -/
def Tree.IsUnlinked (t : Tree) (location : Location) : Prop :=
  ∀ target, t.find? location ≠ some (.link target)

instance (t : Tree) (location : Location) : Decidable (t.IsUnlinked location) :=
  match h : t.find? location with
  | none => isTrue fun _ hlink => by cases h.symm.trans hlink
  | some (.file _) => isTrue fun _ hlink => by cases h.symm.trans hlink
  | some .directory => isTrue fun _ hlink => by cases h.symm.trans hlink
  | some (.link target) => isFalse fun hunlinked => hunlinked target h

/-- No link was where something else stands in the grown tree. -/
theorem Tree.Extends.isUnlinked (h : t.Extends u) {entry : Entry}
    (hentry : u.find? place = some entry) (hlink : ∀ target, entry ≠ .link target) :
    t.IsUnlinked place := by
  intro target hfound
  rw [(h.link _ _).mpr hfound] at hentry
  exact hlink target (Option.some.inj hentry).symm

theorem descend_skip (h : name = "" ∨ name = ".") :
    descend t directory (name :: rest) = descend t directory rest := by
  rw [descend, if_pos h]

theorem descend_up :
    descend t directory (".." :: rest) = descend t directory.dropLast rest := by
  rw [descend, if_neg (by decide), if_pos rfl]

theorem descend_link (hplain : IsPlain name) {target : String}
    (h : t.find? (directory ++ [name]) = some (.link target)) :
    descend t directory (name :: rest) = .link directory target rest := by
  rw [descend, if_neg hplain.1, if_neg hplain.2, h]

theorem descend_unlinked (hplain : IsPlain name) (h : t.IsUnlinked (directory ++ [name])) :
    descend t directory (name :: rest) = descend t (directory ++ [name]) rest := by
  rw [descend, if_neg hplain.1, if_neg hplain.2]
  split
  · rename_i hlink
    exact absurd hlink (h _)
  · rfl

/-! ### Paths that lead somewhere lead to their destination -/

/-- A search that succeeds in the grown tree goes the way that was foreseen. -/
theorem descend_eq_stretch (h : t.Extends u) (hpurpose : purpose ≠ .entry)
    (hsettled : (stretch u purpose directory pieces).isSettled = true) :
    descend t directory pieces = stretch u purpose directory pieces := by
  induction directory, pieces using walkInduction with
  | nil directory => rfl
  | skip directory name rest hskip ih =>
      rw [stretch_skip hskip] at hsettled ⊢
      rw [descend_skip hskip, ih hsettled]
  | up directory rest ih =>
      rw [stretch_up] at hsettled ⊢
      rw [descend_up, ih hsettled]
  | plain directory name rest hplain ih =>
      cases encounter u purpose directory rest hplain with
      | failed e hs | free _ _ _ hs =>
          rw [hs] at hsettled
          cases hsettled
      | enters _ hdirectory hs =>
          rw [hs] at hsettled ⊢
          rw [descend_unlinked hplain (h.isUnlinked hdirectory (by simp)), ih hsettled]
      | file _ content hfile hlast hs =>
          rw [hs, descend_unlinked hplain (h.isUnlinked hfile (by simp)), hlast, descend]
      | entry _ _ _ hentry _ => exact absurd hentry hpurpose
      | link _ target hlink _ hs => rw [hs, descend_link hplain ((h.link _ _).mp hlink)]

theorem descendLinks_eq_of_followLinks (h : t.Extends u) (hpurpose : purpose ≠ .entry) {links : Nat}
    (hfound : followLinks u purpose links directory pieces = .found place) :
    descendLinks t links directory pieces = some place := by
  refine followLinks_induction
    (motive := fun links directory pieces => descendLinks t links directory pieces = some place)
    (by simp) (fun links directory pieces hs => ?ended)
    (fun links directory pieces above target rest hs ih => ?link) hfound
  case ended =>
    rw [descendLinks.eq_def, descend_eq_stretch h hpurpose (by rw [hs]; rfl), hs]
  case link =>
    rw [descendLinks, descend_eq_stretch h hpurpose (by rw [hs]; rfl), hs]
    exact ih

/-- **A path that leads somewhere in the grown tree leads to its destination.** -/
theorem destination_of_lookup (h : t.Extends u) (hpurpose : purpose ≠ .entry)
    (hfound : lookup u cwd purpose p = .found place) : destination t cwd p = some place := by
  have hsearched := isSearched_of_lookup hfound (by simp)
  rw [hsearched.lookup] at hfound
  exact descendLinks_eq_of_followLinks h hpurpose hfound

/-! ### Files in a directory -/

/-- A descent does not fail. -/
theorem descend_cases (t : Tree) (directory : Location) (pieces : List String) :
    (∃ location, descend t directory pieces = .ended (.found location)) ∨
      ∃ above target rest, descend t directory pieces = .link above target rest := by
  induction directory, pieces using walkInduction with
  | nil directory => exact Or.inl ⟨directory, rfl⟩
  | skip directory name rest hskip ih =>
      rw [descend_skip hskip]
      exact ih
  | up directory rest ih =>
      rw [descend_up]
      exact ih
  | plain directory name rest hplain ih =>
      by_cases hlink : t.IsUnlinked (directory ++ [name])
      · rw [descend_unlinked hplain hlink]
        exact ih
      · simp only [Tree.IsUnlinked, not_forall, not_not] at hlink
        obtain ⟨target, hlink⟩ := hlink
        exact Or.inr ⟨directory, target, rest, descend_link hplain hlink⟩

theorem descend_append (more : List String) :
    descend t directory (pieces ++ more) =
      match descend t directory pieces with
      | .ended (.found location) => descend t location more
      | .ended lookup => .ended lookup
      | .link above target rest => .link above target (rest ++ more) := by
  induction directory, pieces using walkInduction with
  | nil directory => rfl
  | skip directory name rest hskip ih =>
      rw [List.cons_append, descend_skip hskip, ih, descend_skip hskip]
  | up directory rest ih => rw [List.cons_append, descend_up, ih, descend_up]
  | plain directory name rest hplain ih =>
      rw [List.cons_append]
      by_cases hlink : t.IsUnlinked (directory ++ [name])
      · rw [descend_unlinked hplain hlink, descend_unlinked hplain hlink, ih]
      · simp only [Tree.IsUnlinked, not_forall, not_not] at hlink
        obtain ⟨target, hlink⟩ := hlink
        rw [descend_link hplain hlink, descend_link hplain hlink]

/-- What follows some pieces is followed from their destination, if they have one. -/
theorem descendLinks_append (t : Tree) (links : Nat) (directory : Location) (pieces : List String) :
    (descendLinks t links directory pieces = none ∧
        ∀ more, descendLinks t links directory (pieces ++ more) = none) ∨
      ∃ fewer above, descendLinks t links directory pieces = some above ∧
        ∀ more, descendLinks t links directory (pieces ++ more) =
          descendLinks t fewer above more := by
  induction links generalizing directory pieces with
  | zero =>
      rcases descend_cases t directory pieces with ⟨above, hs⟩ | ⟨above, target, rest, hs⟩
      · refine Or.inr ⟨0, above, by rw [descendLinks, hs], fun more => ?_⟩
        rw [descendLinks, descend_append, hs, descendLinks]
      · refine Or.inl ⟨by rw [descendLinks, hs], fun more => ?_⟩
        rw [descendLinks, descend_append, hs]
  | succ links ih =>
      rcases descend_cases t directory pieces with ⟨above, hs⟩ | ⟨above, target, rest, hs⟩
      · refine Or.inr ⟨links + 1, above, by rw [descendLinks, hs], fun more => ?_⟩
        rw [descendLinks, descend_append, hs, descendLinks]
      · have hlink : ∀ more, descendLinks t (links + 1) directory (pieces ++ more) =
            descendLinks t links (startOf above target) (pathPieces target ++ rest ++ more) := by
          intro more
          rw [descendLinks, descend_append, hs, List.append_assoc]
        have hnone := hlink []
        rw [List.append_nil, List.append_nil] at hnone
        simp only [hlink, hnone]
        exact ih (startOf above target) (pathPieces target ++ rest)

/-- A name at the end of the pieces is looked up in the directory that the others lead to. -/
theorem descendLinks_concat (hplain : IsPlain name) {links : Nat}
    (h : descendLinks t links directory (pieces ++ [name]) = some place) :
    ∃ above, descendLinks t links directory pieces = some above ∧
      (t.IsUnlinked (above ++ [name]) → place = above ++ [name]) := by
  rcases descendLinks_append t links directory pieces with
    ⟨-, hnone⟩ | ⟨fewer, above, habove, hmore⟩
  · rw [hnone] at h
    cases h
  · refine ⟨above, habove, fun hunlinked => ?_⟩
    rw [hmore, descendLinks.eq_def, descend_unlinked hplain hunlinked] at h
    exact (Option.some.inj h).symm

/-- A piece that names nothing is passed over. -/
theorem descendLinks_skip (h : name = "" ∨ name = ".") (more : List String) {links : Nat} :
    descendLinks t links directory (pieces ++ name :: more) =
      descendLinks t links directory (pieces ++ more) := by
  rcases descendLinks_append t links directory pieces with ⟨-, hnone⟩ | ⟨fewer, above, -, hmore⟩
  · rw [hnone, hnone]
  · rw [hmore, hmore, descendLinks.eq_def, descend_skip h, ← descendLinks.eq_def]

/-- Only steps lead anywhere. -/
theorem descendLinks_filter {links : Nat} (pieces more : List String) :
    descendLinks t links directory (pieces ++ more.filter isStep) =
      descendLinks t links directory (pieces ++ more) := by
  induction more generalizing pieces with
  | nil => rfl
  | cons name more ih =>
      by_cases hstep : isStep name = true
      · rw [List.filter_cons_of_pos hstep, List.append_cons, ih, ← List.append_cons]
      · have hskip : name = "" ∨ name = "." := by
          simpa [isStep, Classical.or_iff_not_imp_left] using hstep
        rw [List.filter_cons_of_neg hstep, ih, descendLinks_skip hskip]

theorem destination_eq_steps :
    destination t cwd p = descendLinks t maxLinks (startOf cwd p) p.steps :=
  (descendLinks_filter [] (pathPieces p)).symm

/-- **A file's destination is its name in the destination of its directory**, unless a link stands
there. -/
theorem destination_file {folder : Path} (hplain : IsPlain name) (hslash : '/' ∉ name.toList)
    (h : destination t cwd (folder.join name) = some place) :
    ∃ above, destination t cwd folder = some above ∧
      (t.IsUnlinked (above ++ [name]) → place = above ++ [name]) := by
  rw [destination_eq_steps, steps_join hplain hslash, startOf_join hslash] at h
  rw [destination_eq_steps]
  exact descendLinks_concat hplain h

end UseCases.Files
