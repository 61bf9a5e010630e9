/-
Paths that go up only from what exists.

A path may go into a directory and up again.  As long as the directory is missing, the path leads
nowhere; once it is made, the path leads past it, perhaps to a file that was there all along.  A
path is grounded if it never goes up from a place that is missing.  Making directories on the way of
such a path uncovers nothing: if one of them was missing, the path ends below it, where nothing was.

A path that was found is grounded, and so is every path that starts the same way.
-/
import UseCases.Files.World
import UseCases.Proofs.Files.Destination

namespace UseCases.Files

variable {t u : Tree} {purpose : Purpose} {cwd directory above place : Location} {p q : Path}
  {pieces rest : List String} {name : String} {links : Nat}

/-! ### Places that are missing -/

/-- After a place that may be missing there are only empty pieces. -/
theorem empty_of_ends (h : (rest.isEmpty || isSlash rest) = true) : ∀ piece ∈ rest, piece = "" := by
  simp only [isSlash, Bool.or_eq_true, Bool.and_eq_true, List.isEmpty_iff, List.all_eq_true,
    beq_iff_eq] at h
  rcases h with rfl | ⟨-, hall⟩
  · simp
  · exact hall

/-- Empty pieces lead nowhere. -/
theorem descend_slash (h : ∀ piece ∈ rest, piece = "") :
    descend t directory rest = .ended (.found directory) := by
  induction rest with
  | nil => rfl
  | cons piece rest ih =>
      rw [descend_skip (Or.inl (h piece List.mem_cons_self))]
      exact ih fun piece hpiece => h piece (List.mem_cons_of_mem _ hpiece)

/-- Where a search goes on, if it came to a link or to a free place. -/
def Stretch.passage : Stretch → Option Stretch
  | .ended (.absent directory name) => some (.ended (.found (directory ++ [name])))
  | .ended _ => none
  | .link directory target rest => some (.link directory target rest)

theorem descend_of_passage {onward : Stretch}
    (h : (stretch t purpose directory pieces).passage = some onward) :
    descend t directory pieces = onward := by
  induction directory, pieces using walkInduction with
  | nil directory => cases h
  | skip directory name rest hskip ih =>
      rw [stretch_skip hskip] at h
      rw [descend_skip hskip, ih h]
  | up directory rest ih =>
      rw [stretch_up] at h
      rw [descend_up, ih h]
  | plain directory name rest hplain ih =>
      cases encounter t purpose directory rest hplain with
      | failed e hs | file _ _ _ _ hs | entry _ _ _ _ hs =>
          rw [hs] at h
          cases h
      | free _ hfree hend hs =>
          rw [hs] at h
          rw [descend_unlinked hplain (by simp [Tree.IsUnlinked, hfree]),
            descend_slash (empty_of_ends hend)]
          exact Option.some.inj h
      | enters _ hdirectory hs =>
          rw [hs] at h
          rw [descend_unlinked hplain (by simp [Tree.IsUnlinked, hdirectory]), ih h]
      | link _ target hlink _ hs =>
          rw [hs] at h
          rw [descend_link hplain hlink]
          exact Option.some.inj h

/-- A path that leads to a free place leads there once it is filled. -/
theorem destination_of_absent (h : lookup t cwd purpose p = .absent above name) :
    destination t cwd p = some (above ++ [name]) := by
  have hsearched := isSearched_of_lookup h (by simp)
  rw [hsearched.lookup] at h
  refine followLinks_induction
    (motive := fun links directory pieces =>
      descendLinks t links directory pieces = some (above ++ [name]))
    (by simp) (fun links directory pieces hs => ?ended)
    (fun links directory pieces above' target rest hs ih => ?link) h
  case ended =>
    rw [descendLinks.eq_def, descend_of_passage (by rw [hs]; rfl)]
  case link =>
    rw [descendLinks, descend_of_passage (by rw [hs]; rfl)]
    exact ih

/-- Without a step up, what comes after a missing place lies below it. -/
theorem descendLinks_below (links : Nat) (h : t.find? place = none) (hup : ".." ∉ rest) :
    ∃ names, descendLinks t links place rest = some (place ++ names) := by
  have hdescend : ∃ names, descend t place rest = .ended (.found (place ++ names)) := by
    induction place, rest using walkInduction with
    | nil place => exact ⟨[], by rw [List.append_nil]; rfl⟩
    | skip place name rest hskip ih =>
        rw [descend_skip hskip]
        exact ih h fun hmem => hup (List.mem_cons_of_mem _ hmem)
    | up place rest ih => exact absurd List.mem_cons_self hup
    | plain place name rest hplain ih =>
        have hmissing := t.find?_append_of_none h [name]
        obtain ⟨names, hnames⟩ := ih hmissing fun hmem => hup (List.mem_cons_of_mem _ hmem)
        refine ⟨name :: names, ?_⟩
        rw [descend_unlinked hplain (by simp [Tree.IsUnlinked, hmissing]), hnames,
          List.append_assoc, List.singleton_append]
  obtain ⟨names, hnames⟩ := hdescend
  exact ⟨names, by rw [descendLinks.eq_def, hnames]⟩

/-! ### Ways that succeed -/

/-- Pieces on the way to an entry lead to a directory, or to a link that the way goes on with. -/
theorem stretch_append {more : List String} (hmore : more ≠ [])
    (hdir : t.isDirectory directory = true)
    (hsettled : (stretch t .target directory (pieces ++ more)).isSettled = true) :
    (∃ above, descend t directory pieces = .ended (.found above) ∧ t.isDirectory above = true) ∨
      ∃ above target rest, descend t directory pieces = .link above target rest ∧
        stretch t .target directory (pieces ++ more) = .link above target (rest ++ more) := by
  induction directory, pieces using walkInduction with
  | nil directory => exact Or.inl ⟨directory, rfl, hdir⟩
  | skip directory name rest hskip ih =>
      rw [List.cons_append, stretch_skip hskip] at hsettled ⊢
      rw [descend_skip hskip]
      exact ih hdir hsettled
  | up directory rest ih =>
      rw [List.cons_append, stretch_up] at hsettled ⊢
      rw [descend_up]
      exact ih (Tree.isDirectory_dropLast hdir) hsettled
  | plain directory name rest hplain ih =>
      rw [List.cons_append] at hsettled ⊢
      cases encounter t .target directory (rest ++ more) hplain with
      | failed e hs | free _ _ _ hs =>
          rw [hs] at hsettled
          cases hsettled
      | enters _ hdirectory hs =>
          rw [hs] at hsettled ⊢
          rw [descend_unlinked hplain (by simp [Tree.IsUnlinked, hdirectory])]
          exact ih (by rw [Tree.isDirectory, hdirectory]; rfl) hsettled
      | file _ _ _ hlast _ => exact absurd (List.append_eq_nil_iff.mp hlast).2 hmore
      | entry _ _ _ hentry _ => cases hentry
      | link _ target hlink _ hs =>
          exact Or.inr ⟨directory, target, rest, descend_link hplain hlink, hs⟩

theorem descendLinks_of_found {more : List String} (hmore : more ≠ [])
    (hdir : t.isDirectory directory = true) (hpieces : Unslashed (pieces ++ more))
    (hfound : followLinks t .target links directory (pieces ++ more) = .found place) :
    ∃ above, descendLinks t links directory pieces = some above ∧ t.isDirectory above = true := by
  induction links generalizing directory pieces with
  | zero =>
      cases hs : stretch t .target directory (pieces ++ more) with
      | ended result =>
          rw [followLinks_ended hs] at hfound
          rcases stretch_append hmore hdir (by rw [hs, hfound]; rfl) with
            ⟨above, habove, hholds⟩ | ⟨above, target, rest, -, hlink⟩
          · exact ⟨above, by rw [descendLinks.eq_def, habove], hholds⟩
          · rw [hs] at hlink
            cases hlink
      | link above target rest =>
          rw [followLinks, hs] at hfound
          cases hfound
  | succ links ih =>
      have hsettled : (stretch t .target directory (pieces ++ more)).isSettled = true := by
        cases hs : stretch t .target directory (pieces ++ more) with
        | ended result => rw [← followLinks_ended hs, hfound]; rfl
        | link above target rest => rfl
      rcases stretch_append hmore hdir hsettled with
        ⟨above, habove, hholds⟩ | ⟨above, target, rest, habove, hlink⟩
      · exact ⟨above, by rw [descendLinks.eq_def, habove], hholds⟩
      · have hheld : (stretch t .target directory (pieces ++ more)).IsHeld t :=
          stretch_isHeld hdir hpieces
        rw [hlink] at hheld
        have hnext := (unslashed_pathPieces target).append hheld.2
        rw [← List.append_assoc] at hnext
        rw [followLinks_link hlink, ← List.append_assoc] at hfound
        rw [descendLinks, habove]
        exact ih (isDirectory_startOf hheld.1 target) hnext hfound

/-! ### Destinations while the tree grows -/

theorem descend_extends (h : t.Extends u) (directory : Location) (pieces : List String) :
    descend u directory pieces = descend t directory pieces := by
  induction directory, pieces using walkInduction with
  | nil directory => rfl
  | skip directory name rest hskip ih => rw [descend_skip hskip, descend_skip hskip, ih]
  | up directory rest ih => rw [descend_up, descend_up, ih]
  | plain directory name rest hplain ih =>
      by_cases hlink : t.IsUnlinked (directory ++ [name])
      · have hlink' : u.IsUnlinked (directory ++ [name]) := by
          intro target hfound
          exact hlink target ((h.link _ target).mp hfound)
        rw [descend_unlinked hplain hlink, descend_unlinked hplain hlink', ih]
      · simp only [Tree.IsUnlinked, not_forall, not_not] at hlink
        obtain ⟨target, hfound⟩ := hlink
        rw [descend_link hplain hfound, descend_link hplain ((h.link _ target).mpr hfound)]

theorem descendLinks_extends (h : t.Extends u) (links : Nat) (directory : Location)
    (pieces : List String) :
    descendLinks u links directory pieces = descendLinks t links directory pieces := by
  induction links generalizing directory pieces with
  | zero => rw [descendLinks, descendLinks, descend_extends h]
  | succ links ih =>
      rw [descendLinks, descendLinks, descend_extends h]
      split
      · rfl
      · rfl
      · exact ih _ _

theorem destination_extends (h : t.Extends u) : destination u cwd p = destination t cwd p :=
  descendLinks_extends h maxLinks (startOf cwd p) (pathPieces p)

/-! ### Grounded paths -/

/-- Each step up of the path is made from a place that exists. -/
def Grounded (t : Tree) (cwd : Location) (p : Path) : Prop :=
  ∀ k < p.steps.length, p.steps[k]? = some ".." →
    ∃ place ∈ descendLinks t maxLinks (startOf cwd p) (p.steps.take k),
      (t.find? place).isSome = true

instance (t : Tree) (cwd : Location) (p : Path) : Decidable (Grounded t cwd p) :=
  inferInstanceAs (Decidable (∀ k < p.steps.length, p.steps[k]? = some ".." →
    ∃ place ∈ descendLinks t maxLinks (startOf cwd p) (p.steps.take k),
      (t.find? place).isSome = true))

theorem grounded_iff : Grounded t cwd p ↔ ∀ before after, p.steps = before ++ ".." :: after →
    ∃ place, descendLinks t maxLinks (startOf cwd p) before = some place ∧
      (t.find? place).isSome = true := by
  constructor
  · intro h before after hsteps
    have hplace := h before.length (by rw [hsteps]; simp) (by rw [hsteps]; simp)
    rw [hsteps, List.take_left] at hplace
    obtain ⟨place, hplace, hthere⟩ := hplace
    exact ⟨place, hplace, hthere⟩
  · intro h k hk hup
    obtain ⟨hbound, hname⟩ := List.getElem?_eq_some_iff.mp hup
    have hsteps : p.steps = p.steps.take k ++ ".." :: p.steps.drop (k + 1) := by
      rw [← hname, ← List.drop_eq_getElem_cons hbound, List.take_append_drop]
    obtain ⟨place, hplace, hthere⟩ := h _ _ hsteps
    exact ⟨place, hplace, hthere⟩

theorem grounded_of_notMem (h : ".." ∉ p.steps) : Grounded t cwd p := by
  rw [grounded_iff]
  intro before after hsteps
  exact absurd (hsteps ▸ List.mem_append_right before List.mem_cons_self) h

namespace Grounded

theorem mono (h : Grounded t cwd p) (hgrown : t.Extends u) : Grounded u cwd p := by
  rw [grounded_iff] at h ⊢
  intro before after hsteps
  obtain ⟨place, hplace, hthere⟩ := h before after hsteps
  refine ⟨place, by rw [descendLinks_extends hgrown, hplace], ?_⟩
  cases hfound : t.find? place with
  | none =>
      rw [hfound] at hthere
      cases hthere
  | some entry =>
      cases entry with
      | directory => rw [hgrown.directory place hfound]; rfl
      | file content =>
          obtain ⟨content', hfile⟩ := hgrown.file place content hfound
          rw [hfile]
          rfl
      | link target => rw [(hgrown.link place target).mpr hfound]; rfl

/-- A path that starts like a grounded one is grounded. -/
theorem of_start (h : Grounded t cwd p) (hstart : q.isAbsolute = p.isAbsolute)
    (hsteps : q.steps <+: p.steps) : Grounded t cwd q := by
  rw [grounded_iff] at h ⊢
  intro before after hq
  obtain ⟨others, hothers⟩ := hsteps
  have hplace := h before (after ++ others) (by rw [← hothers, hq, List.append_assoc]; rfl)
  rw [startOf, hstart]
  exact hplace

theorem join {folder : Path} (h : Grounded t cwd folder) (hplain : IsPlain name)
    (hslash : '/' ∉ name.toList) : Grounded t cwd (folder.join name) := by
  rw [grounded_iff] at h ⊢
  intro before after hsteps
  rw [steps_join hplain hslash] at hsteps
  rcases List.eq_nil_or_concat after with rfl | ⟨front, last, rfl⟩
  · obtain ⟨-, hlast⟩ := List.append_inj' hsteps rfl
    exact absurd (List.singleton_inj.mp hlast) hplain.2
  · rw [List.concat_eq_append, ← List.cons_append, ← List.append_assoc] at hsteps
    obtain ⟨hfolder, -⟩ := List.append_inj' hsteps rfl
    rw [startOf_join hslash]
    exact h before front hfolder

/-- **A grounded path leads to or below each place on its way that is missing.** -/
theorem destination_below (h : Grounded t cwd p) (hstart : q.isAbsolute = p.isAbsolute)
    (hsteps : q.steps <+: p.steps) (hq : destination t cwd q = some above)
    (hmissing : t.find? above = none) :
    ∃ names, destination t cwd p = some (above ++ names) := by
  obtain ⟨rest, hrest⟩ := hsteps
  rw [destination_eq_steps, startOf, hstart, ← startOf] at hq
  rw [destination_eq_steps, ← hrest]
  rcases descendLinks_append t maxLinks (startOf cwd p) q.steps with
    ⟨hnone, -⟩ | ⟨fewer, above', habove, hmore⟩
  · rw [hnone] at hq
    cases hq
  · obtain rfl := Option.some.inj (habove.symm.trans hq)
    have hbelow : ∀ names, ".." ∉ names → ∃ more,
        descendLinks t maxLinks (startOf cwd p) (q.steps ++ names) = some (above' ++ more) := by
      intro names hnames
      rw [hmore]
      exact descendLinks_below fewer hmissing hnames
    -- the first step up after the missing place would be made from a missing place
    have hup : ".." ∉ rest := by
      intro hmem
      obtain ⟨before, after, hsplit, hbefore⟩ := List.eq_append_cons_of_mem hmem
      obtain ⟨place, hplace, hthere⟩ := (grounded_iff.mp h) (q.steps ++ before) after
        (by rw [← hrest, hsplit, List.append_assoc])
      obtain ⟨more, hplace'⟩ := hbelow before hbefore
      obtain rfl := Option.some.inj (hplace.symm.trans hplace')
      rw [t.find?_append_of_none hmissing more] at hthere
      cases hthere
    exact hbelow rest hup

/-- Below a missing place on its way, a grounded path leads to nothing. -/
theorem destination_missing (h : Grounded t cwd p) (hstart : q.isAbsolute = p.isAbsolute)
    (hsteps : q.steps <+: p.steps) (hq : destination t cwd q = some above)
    (hmissing : t.find? above = none) :
    ∃ place, destination t cwd p = some place ∧ t.find? place = none := by
  obtain ⟨names, hplace⟩ := h.destination_below hstart hsteps hq hmissing
  exact ⟨above ++ names, hplace, t.find?_append_of_none hmissing names⟩

end Grounded

/-- A path that leads somewhere is grounded. -/
theorem grounded_of_found {w : World} (h : w.target p = .found place) :
    Grounded w.tree w.cwd p := by
  rw [World.target] at h
  have hsearched := isSearched_of_lookup h (by simp)
  rw [hsearched.lookup] at h
  rw [grounded_iff]
  intro before after hsteps
  obtain ⟨front, back, hpieces, hfront, hback⟩ := List.filter_eq_append_iff.mp hsteps
  have hmore : back ≠ [] := by
    rintro rfl
    cases hback
  rw [hpieces] at h
  obtain ⟨above, habove, hholds⟩ := descendLinks_of_found hmore
    (isDirectory_startOf w.isDirectory_cwd p) (hpieces ▸ unslashed_pathPieces p) h
  refine ⟨above, ?_, by rw [Tree.find?_eq_some_directory hholds]; rfl⟩
  rw [← hfront, ← habove]
  exact descendLinks_filter [] front

end UseCases.Files
