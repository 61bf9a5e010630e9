/-
Directories that can be made.

To make a directory the program asks for it, and if the directory that it goes to is missing, it
makes that one first.  The way up ends, as each parent is a shorter path, and the way down goes
through places that are free or directories already.  So the directory is there in the end, if
nothing but directories is on the way and the path is sound: it can be asked for at all.  Then a
file can be written in it, if there is no directory in its place.
-/
import UseCases.Proofs.Files.Building
import UseCases.Proofs.Files.Parent
import UseCases.Proofs.Text.Slice

namespace UseCases.Files

variable {t : Tree} {w v : World} {purpose : Purpose} {cwd directory location : Location}
  {p q : Path} {pieces front rest : List String} {name : String}

/-! ### Sound paths -/

/-- The path can be looked up, and no name on it is too long. -/
structure Path.Sound (p : Path) : Prop where
  nul : '\x00' ∉ p.toList
  short : Text.utf8Length p.toList < maxPath
  names : ∀ name ∈ p.steps, Text.utf8Length name.toList ≤ maxName

theorem Path.Sound.parent (h : p.Sound) (hparent : p.parent? = some q) : q.Sound where
  nul hmem := h.nul ((toList_of_parent? hparent).1.subset hmem)
  short := (Text.utf8Length_mono (toList_of_parent? hparent).1).trans_lt h.short
  names name hmem := by
    rw [steps_of_parent? hparent] at hmem
    exact h.names name (List.dropLast_subset _ hmem)

theorem Path.Sound.isSearched (h : p.Sound) (hne : p ≠ "") : p.IsSearched :=
  ⟨h.nul, hne, h.short⟩

/-- A search that finds something met no name that is too long. -/
theorem stretch_fits (h : t.Linkless) (hup : ".." ∉ pieces)
    (hfound : stretch t purpose directory pieces = .ended (.found location)) :
    ∀ name ∈ pieces.filter isStep, Text.utf8Length name.toList ≤ maxName := by
  induction directory, pieces using walkInduction with
  | nil directory => simp
  | skip directory name rest hskip ih =>
      have hstep : ¬isStep name = true := by
        rcases hskip with rfl | rfl <;> decide
      rw [stretch_skip hskip] at hfound
      rw [List.filter_cons_of_neg hstep]
      exact ih (fun hmem => hup (List.mem_cons_of_mem _ hmem)) hfound
  | up directory rest ih => exact absurd List.mem_cons_self hup
  | plain directory name rest hplain ih =>
      have hrest : ".." ∉ rest := fun hmem => hup (List.mem_cons_of_mem _ hmem)
      rw [List.filter_cons_of_pos (isStep_of_isPlain hplain), List.forall_mem_cons]
      cases encounter t purpose directory rest hplain with
      | failed e hs | free _ _ _ hs =>
          rw [hs] at hfound
          cases hfound
      | enters hadmits _ hs =>
          rw [hs] at hfound
          exact ⟨Nat.le_of_not_lt hadmits.2, ih hrest hfound⟩
      | file hadmits _ _ hlast _ =>
          rw [hlast]
          exact ⟨Nat.le_of_not_lt hadmits.2, by simp⟩
      | entry _ target hlink _ _ | link _ target hlink _ _ => exact absurd hlink (h _ target)

/-- A path that leads somewhere is sound. -/
theorem sound_of_found (h : t.Linkless) (hup : ".." ∉ p.steps)
    (hfound : lookup t cwd purpose p = .found location) : p.Sound ∧ p ≠ "" := by
  have hsearched := isSearched_of_lookup hfound (by simp)
  obtain ⟨result, hs⟩ := stretch_linkless h purpose (startOf cwd p) (pathPieces p)
  rw [hsearched.lookup, followLinks_ended hs] at hfound
  rw [hfound] at hs
  exact ⟨⟨hsearched.nul, hsearched.short, stretch_fits h (up_notMem_pathPieces hup) hs⟩,
    hsearched.nonempty⟩

/-! ### Lookups of sound paths -/

/-- There is nothing on the way to the location, itself included, but directories. -/
def Tree.IsPassable (t : Tree) (location : Location) : Prop :=
  ∀ above, above <+: location → t.find? above = none ∨ t.find? above = some .directory

theorem Tree.IsPassable.of_prefix {above : Location} (h : t.IsPassable location)
    (hstem : above <+: location) : t.IsPassable above :=
  fun other hother => h other (hother.trans hstem)

section Last

variable (hup : ".." ∉ front)
  (hfits : ∀ piece ∈ front.filter isStep, Text.utf8Length piece.toList ≤ maxName)
  (hname : name ≠ "")
include hup hfits hname

/-- A search goes through directories to the last name. -/
theorem stretch_through (hdirectory : t.isDirectory (directory ++ front.filter isStep) = true) :
    stretch t purpose directory (front ++ [name]) =
      stretch t purpose (directory ++ front.filter isStep) [name] := by
  induction directory, front using walkInduction with
  | nil directory => rw [List.filter_nil, List.append_nil]; rfl
  | skip directory piece rest hskip ih =>
      have hstep : ¬isStep piece = true := by
        rcases hskip with rfl | rfl <;> decide
      rw [List.filter_cons_of_neg hstep] at hfits hdirectory ⊢
      rw [List.cons_append, stretch_skip hskip]
      exact ih (fun hmem => hup (List.mem_cons_of_mem _ hmem)) hfits hdirectory
  | up directory rest ih => exact absurd List.mem_cons_self hup
  | plain directory piece rest hplain ih =>
      rw [List.filter_cons_of_pos (isStep_of_isPlain hplain)] at hfits hdirectory ⊢
      rw [List.append_cons directory piece] at hdirectory ⊢
      have hhere : t.find? (directory ++ [piece]) = some .directory :=
        Tree.find?_eq_some_directory (t.isDirectory_of_prefix (List.prefix_append _ _) hdirectory)
      have hadmits : purpose.Admits piece (rest ++ [name]) := by
        refine ⟨?_, Nat.not_lt.mpr (hfits piece List.mem_cons_self)⟩
        simp [isSlash, hname]
      rw [List.cons_append, stretch_directory hplain hadmits hhere]
      exact ih (fun hmem => hup (List.mem_cons_of_mem _ hmem))
        (fun other hother => hfits other (List.mem_cons_of_mem _ hother)) hdirectory

/-- A search for a name in a directory that is missing fails. -/
theorem stretch_stranded (hdirectory : t.isDirectory directory = true)
    (hway : t.IsPassable (directory ++ front.filter isStep))
    (hmissing : t.find? (directory ++ front.filter isStep) = none) :
    stretch t purpose directory (front ++ [name]) = .ended (.failed .notFound) := by
  induction directory, front using walkInduction with
  | nil directory =>
      rw [List.filter_nil, List.append_nil, Tree.find?_eq_some_directory hdirectory] at hmissing
      cases hmissing
  | skip directory piece rest hskip ih =>
      have hstep : ¬isStep piece = true := by
        rcases hskip with rfl | rfl <;> decide
      rw [List.filter_cons_of_neg hstep] at hfits hway hmissing
      rw [List.cons_append, stretch_skip hskip]
      exact ih (fun hmem => hup (List.mem_cons_of_mem _ hmem)) hfits hdirectory hway hmissing
  | up directory rest ih => exact absurd List.mem_cons_self hup
  | plain directory piece rest hplain ih =>
      rw [List.filter_cons_of_pos (isStep_of_isPlain hplain)] at hfits hway hmissing
      rw [List.append_cons directory piece] at hway hmissing
      have hadmits : purpose.Admits piece (rest ++ [name]) := by
        refine ⟨?_, Nat.not_lt.mpr (hfits piece List.mem_cons_self)⟩
        simp [isSlash, hname]
      rw [List.cons_append]
      rcases hway (directory ++ [piece]) (List.prefix_append _ _) with hnone | hhere
      · rw [stretch_none hplain hadmits hnone, if_neg (by simp [isSlash, hname])]
      · rw [stretch_directory hplain hadmits hhere]
        exact ih (fun hmem => hup (List.mem_cons_of_mem _ hmem))
          (fun other hother => hfits other (List.mem_cons_of_mem _ hother))
          (by rw [Tree.isDirectory, hhere]; rfl) hway hmissing

end Last

/-- The path can be looked up, and goes from step to step to its place. -/
structure Path.Straight (p : Path) : Prop where
  sound : p.Sound
  nonempty : p ≠ ""
  ends : p.EndsInStep
  up : ".." ∉ p.steps

/-- The path has these pieces and this last name, none of them too long. -/
structure Path.EndsWith (p : Path) (front : List String) (name : String) : Prop where
  pieces : pathPieces p = front ++ [name]
  plain : IsPlain name
  up : ".." ∉ front
  fits : ∀ piece ∈ front.filter isStep, Text.utf8Length piece.toList ≤ maxName
  fitsLast : Text.utf8Length name.toList ≤ maxName

namespace Path.EndsWith

theorem place (h : p.EndsWith front name) (cwd : Location) :
    p.place cwd = startOf cwd p ++ front.filter isStep ++ [name] := by
  rw [Path.place, Path.steps, h.pieces, List.filter_append,
    List.filter_cons_of_pos (isStep_of_isPlain h.plain), List.filter_nil, List.append_assoc]

theorem ne (h : p.EndsWith front name) : name ≠ "" :=
  fun hempty => h.plain.1 (Or.inl hempty)

theorem admits (h : p.EndsWith front name) (purpose : Purpose) : purpose.Admits name [] :=
  ⟨by simp [isSlash], Nat.not_lt.mpr h.fitsLast⟩

end Path.EndsWith

theorem Path.Straight.cases (h : p.Straight) :
    p.steps = [] ∨ ∃ front name, p.EndsWith front name := by
  refine h.ends.imp_right fun ⟨front, name, hpieces, hstep⟩ => ⟨front, name, ?_⟩
  have hsteps : p.steps = front.filter isStep ++ [name] := by
    rw [Path.steps, hpieces, List.filter_append, List.filter_cons_of_pos hstep, List.filter_nil]
  have hnames := h.sound.names
  rw [hsteps] at hnames
  refine ⟨hpieces, ⟨?_, ?_⟩, ?_, fun piece hpiece => hnames piece (List.mem_append_left _ hpiece),
    hnames name (List.mem_append_right _ List.mem_cons_self)⟩
  · rintro (rfl | rfl) <;> cases hstep
  · rintro rfl
    exact h.up (hsteps ▸ List.mem_append_right _ List.mem_cons_self)
  · exact fun hmem => up_notMem_pathPieces h.up (hpieces ▸ List.mem_append_left _ hmem)

/-- The pieces of a path without a step lead nowhere. -/
theorem stretch_of_noStep (h : pieces.filter isStep = []) :
    stretch t purpose directory pieces = .ended (.found directory) := by
  induction pieces with
  | nil => rfl
  | cons piece rest ih =>
      have hstep : ¬isStep piece = true := by
        intro hstep
        rw [List.filter_cons_of_pos hstep] at h
        cases h
      have hskip : piece = "" ∨ piece = "." := by
        simpa [isStep, Classical.or_iff_not_imp_left] using hstep
      rw [List.filter_cons_of_neg hstep] at h
      rw [stretch_skip hskip, ih h]

section Lookup

variable (hp : p.Straight)
include hp

/-- A straight path leads to the directory or file at its place. -/
theorem lookup_taken {entry : Entry} (hentry : t.find? (p.place cwd) = some entry)
    (hlink : ∀ target, entry ≠ .link target) :
    lookup t cwd purpose p = .found (p.place cwd) := by
  rw [(hp.sound.isSearched hp.nonempty).lookup]
  refine followLinks_ended ?_
  rcases hp.cases with hnone | ⟨front, name, hlast⟩
  · rw [stretch_of_noStep hnone, Path.place, hnone, List.append_nil]
  · rw [hlast.place] at hentry ⊢
    rw [hlast.pieces, stretch_through hlast.up hlast.fits hlast.ne
      (Tree.isDirectory_above hentry)]
    cases entry with
    | directory => rw [stretch_directory hlast.plain (hlast.admits purpose) hentry]; rfl
    | file content => rw [stretch_file hlast.plain (hlast.admits purpose) hentry]; rfl
    | link target => exact absurd rfl (hlink target)

/-- A straight path leads to its place, if that is free in a directory. -/
theorem lookup_free (hdirectory : w.tree.isDirectory (p.place w.cwd).dropLast = true)
    (hfree : w.tree.find? (p.place w.cwd) = none) :
    ∃ directory name, lookup w.tree w.cwd purpose p = .absent directory name ∧
      directory ++ [name] = p.place w.cwd := by
  rcases hp.cases with hnone | ⟨front, name, hlast⟩
  · rw [Path.place, hnone, List.append_nil,
      Tree.find?_eq_some_directory (isDirectory_startOf w.isDirectory_cwd p)] at hfree
    cases hfree
  · rw [hlast.place] at hdirectory hfree ⊢
    rw [List.dropLast_concat] at hdirectory
    refine ⟨_, _, ?_, rfl⟩
    rw [(hp.sound.isSearched hp.nonempty).lookup]
    refine followLinks_ended ?_
    rw [hlast.pieces, stretch_through hlast.up hlast.fits hlast.ne hdirectory,
      stretch_none hlast.plain (hlast.admits purpose) hfree]
    rfl

/-- A straight path whose directory is missing leads nowhere. -/
theorem lookup_stranded (hway : w.tree.IsPassable (p.place w.cwd))
    (hmissing : w.tree.find? (p.place w.cwd).dropLast = none) :
    lookup w.tree w.cwd purpose p = .failed .notFound := by
  have hstart : w.tree.isDirectory (startOf w.cwd p) = true :=
    isDirectory_startOf w.isDirectory_cwd p
  rcases hp.cases with hnone | ⟨front, name, hlast⟩
  · rw [Path.place, hnone, List.append_nil,
      Tree.find?_eq_some_directory (Tree.isDirectory_dropLast hstart)] at hmissing
    cases hmissing
  · rw [hlast.place] at hway hmissing
    rw [List.dropLast_concat] at hmissing
    rw [(hp.sound.isSearched hp.nonempty).lookup]
    refine followLinks_ended ?_
    rw [hlast.pieces, stretch_stranded hlast.up hlast.fits hlast.ne hstart
      (hway.of_prefix (List.prefix_append _ _)) hmissing]

end Lookup

/-! ### Directories -/

theorem World.Changes.isPassable (h : w.Changes (fun _ => False) v)
    (hway : w.tree.IsPassable location) : v.tree.IsPassable location := by
  intro above habove
  rcases hway above habove with hnone | hdirectory
  · cases hentry : v.tree.find? above with
    | none => exact Or.inl rfl
    | some entry => exact Or.inr (by rw [h.fresh id hnone hentry])
  · exact Or.inr (h.grown.directory above hdirectory)

section Make

variable (hp : p.Straight)
include hp

theorem isDirectory_of_taken (h : w.tree.isDirectory (p.place w.cwd) = true) :
    (isDirectory p : Session Bool) w = (true, w) := by
  have hplace := Tree.find?_eq_some_directory h
  have hkind : w.kind? p = some .directory := by
    rw [World.kind?, World.target, lookup_taken hp hplace (by simp)]
    simp only [hplace]
  show ((w.kind? p == some .directory), w) = (true, w)
  rw [hkind]
  rfl

theorem makeDirectory_of_taken (h : w.tree.isDirectory (p.place w.cwd) = true) :
    (Host.makeDirectory p : Session (Except OsError Unit)) w = (.error .alreadyExists, w) := by
  show changeWorld (fun w => w.makeDirectory p) w = _
  rw [changeWorld, World.makeDirectory,
    lookup_taken hp (Tree.find?_eq_some_directory h) (by simp)]

theorem makeDirectory_of_free (hdirectory : w.tree.isDirectory (p.place w.cwd).dropLast = true)
    (hfree : w.tree.find? (p.place w.cwd) = none) :
    ∃ v, (Host.makeDirectory p : Session (Except OsError Unit)) w = (.ok (), v) ∧
      v.tree.isDirectory (p.place w.cwd) = true := by
  obtain ⟨directory, name, habsent, hplace⟩ : ∃ directory name,
      lookup w.tree w.cwd .entry p = .absent directory name ∧
        directory ++ [name] = p.place w.cwd :=
    lookup_free hp hdirectory hfree
  refine ⟨w.add directory name .directory, ?_, ?_⟩
  · show changeWorld (fun w => w.makeDirectory p) w = _
    rw [changeWorld, World.makeDirectory, habsent]
  · rw [← hplace, World.tree_add, Tree.isDirectory,
      Tree.find?_add_self (World.isFree_of_absent habsent)]
    rfl

theorem makeDirectory_of_stranded (hway : w.tree.IsPassable (p.place w.cwd))
    (hmissing : w.tree.find? (p.place w.cwd).dropLast = none) :
    (Host.makeDirectory p : Session (Except OsError Unit)) w = (.error .notFound, w) := by
  show changeWorld (fun w => w.makeDirectory p) w = _
  rw [changeWorld, World.makeDirectory, lookup_stranded hp hway hmissing]

/-- A directory is made in a directory, or is there already. -/
theorem ensureDirectory_ok (hdirectory : w.tree.isDirectory (p.place w.cwd).dropLast = true)
    (hway : w.tree.IsPassable (p.place w.cwd)) :
    ∃ v, (ensureDirectory p : Session (Except OsError Unit)) w = (.ok (), v) ∧
      v.tree.isDirectory (p.place w.cwd) = true := by
  rcases hway _ (List.prefix_refl _) with hfree | hthere
  · obtain ⟨v, hmade, hplace⟩ := makeDirectory_of_free hp hdirectory hfree
    exact ⟨v, session_bind_of hmade, hplace⟩
  · have hplace : w.tree.isDirectory (p.place w.cwd) = true := by
      rw [Tree.isDirectory, hthere]
      rfl
    refine ⟨w, ?_, hplace⟩
    rw [ensureDirectory, session_bind_of (makeDirectory_of_taken hp hplace)]
    exact session_bind_of (isDirectory_of_taken hp hplace)

end Make

theorem place_empty (cwd : Location) : Path.place cwd "" = cwd :=
  List.append_nil cwd

/-- A path without a step leads to where it starts. -/
theorem place_of_noStep (h : p.steps = []) (cwd : Location) : p.place cwd = startOf cwd p := by
  rw [Path.place, h, List.append_nil]

theorem Path.Straight.parent (h : p.Straight) (hparent : p.parent? = some q) :
    q = "" ∨ q.Straight := by
  refine Classical.or_iff_not_imp_left.mpr fun hne => ?_
  refine ⟨h.sound.parent hparent, hne, endsInStep_of_parent? hparent, fun hmem => h.up ?_⟩
  rw [steps_of_parent? hparent] at hmem
  exact List.dropLast_subset _ hmem

/-- The place of the parent is the directory of the place. -/
theorem place_of_parent? (hparent : p.parent? = some q) (hsteps : p.steps ≠ []) (cwd : Location) :
    q.place cwd = (p.place cwd).dropLast := by
  obtain ⟨hstart, -⟩ := parent?_steps hparent
  rw [Path.place, Path.place, steps_of_parent? hparent, startOf, hstart, ← startOf,
    List.dropLast_append_of_ne_nil hsteps]

theorem makeLineage_of_taken (hp : p.Straight) (h : w.tree.isDirectory (p.place w.cwd) = true)
    (ancestors : List Path) :
    (makeLineage (p :: ancestors) : Session (Except OsError Unit)) w = (.ok (), w) := by
  rw [makeLineage, session_bind_of (makeDirectory_of_taken hp h)]
  exact session_bind_of (isDirectory_of_taken hp h)

/-- A directory and those on the way to it are made, if nothing but directories is on the way. -/
theorem makeLineage_ok {fuel : Nat} (hp : p = "" ∨ p.Straight) (hfuel : p.toList.length < fuel)
    (hway : w.tree.IsPassable (p.place w.cwd)) :
    ∃ v, (makeLineage (Path.lineage fuel p) : Session (Except OsError Unit)) w = (.ok (), v) ∧
      v.tree.isDirectory (p.place w.cwd) = true := by
  induction fuel generalizing p w with
  | zero => exact absurd hfuel (Nat.not_lt_zero _)
  | succ fuel ih =>
      rcases hp with rfl | hp
      · exact ⟨w, rfl, by rw [place_empty]; exact w.isDirectory_cwd⟩
      have hempty : ¬p.isEmpty = true := by
        rw [String.isEmpty_iff]
        exact hp.nonempty
      rw [Path.lineage, if_neg hempty]
      have htaken : ∀ ancestors, w.tree.find? (p.place w.cwd) = some .directory →
          ∃ v, (makeLineage (p :: ancestors) : Session (Except OsError Unit)) w = (.ok (), v) ∧
            v.tree.isDirectory (p.place w.cwd) = true := by
        intro ancestors hthere
        have hplace : w.tree.isDirectory (p.place w.cwd) = true := by
          rw [Tree.isDirectory, hthere]
          rfl
        exact ⟨w, makeLineage_of_taken hp hplace ancestors, hplace⟩
      have hstart := Tree.find?_eq_some_directory (isDirectory_startOf w.isDirectory_cwd p)
      cases hparent : p.parent? with
      | none =>
          refine htaken [] ?_
          rw [place_of_noStep (steps_of_parent?_none hparent), hstart]
      | some q =>
          rcases hway _ (List.prefix_refl _) with hfree | hthere
          · have hsteps : p.steps ≠ [] := by
              intro hnone
              rw [place_of_noStep hnone, hstart] at hfree
              cases hfree
            rcases hway _ (List.dropLast_prefix _) with hmissing | habove
            · -- the parent is made first, and then there is a directory to make this one in
              have hplace := place_of_parent? hparent hsteps w.cwd
              obtain ⟨u, hancestors, hmade⟩ := ih (hp.parent hparent)
                (Nat.lt_of_lt_of_le (toList_of_parent? hparent).2 (Nat.le_of_lt_succ hfuel))
                (hplace ▸ hway.of_prefix (List.dropLast_prefix _))
              have hquiet := (quiet_makeLineage _).changes hancestors
              rw [hplace, ← hquiet.cwd] at hmade
              have hway' := hquiet.isPassable hway
              rw [← hquiet.cwd] at hway' ⊢
              obtain ⟨v, hensured, hthere⟩ := ensureDirectory_ok hp hmade hway'
              refine ⟨v, ?_, hthere⟩
              rw [makeLineage, session_bind_of (makeDirectory_of_stranded hp hway hmissing)]
              exact (session_bind_of hancestors).trans hensured
            · obtain ⟨v, hmade, hthere⟩ := makeDirectory_of_free hp
                (by rw [Tree.isDirectory, habove]; rfl) hfree
              exact ⟨v, session_bind_of hmade, hthere⟩
          · exact htaken _ hthere

/-- **Directories are made, if nothing but directories is on the way.** -/
theorem makeDirectories_ok (hp : p = "" ∨ p.Straight)
    (hway : w.tree.IsPassable (p.place w.cwd)) :
    ∃ v, (makeDirectories p : Session (Except OsError Unit)) w = (.ok (), v) ∧
      v.tree.isDirectory (p.place w.cwd) = true :=
  makeLineage_ok hp (Nat.lt_succ_self _) hway

/-! ### Files -/

/-- A file can be written at the location: it is free or holds a file, and nothing but directories is
on the way. -/
structure Tree.Takes (t : Tree) (location : Location) : Prop where
  way : t.IsPassable location.dropLast
  place : t.find? location = none ∨ ∃ content, t.find? location = some (.file content)

/-- Where a file stands in the grown tree, one could be written before. -/
theorem Tree.Extends.takes {u : Tree} (h : t.Extends u) {content : ByteArray}
    (hne : location ≠ []) (hfile : u.find? location = some (.file content)) :
    t.Takes location where
  way := by
    have habove : u.isDirectory location.dropLast = true := by
      rw [← List.dropLast_concat_getLast hne] at hfile
      exact Tree.isDirectory_above hfile
    intro above hstem
    have hthere := Tree.find?_eq_some_directory (u.isDirectory_of_prefix hstem habove)
    by_cases hold : t.find? above = none
    · exact Or.inl hold
    · exact Or.inr ((h.kind_back hthere hold).1 rfl)
  place := by
    by_cases hold : t.find? location = none
    · exact Or.inl hold
    · exact Or.inr ((h.kind_back hfile hold).2 content rfl)

/-- Work beside a location does not change that a file can be written there. -/
theorem World.Builds.takes {touched : Location → Prop} (h : w.Builds touched v)
    (hbeside : ∀ place, touched place → Beside location place) (htakes : w.tree.Takes location) :
    v.tree.Takes location where
  way above hstem := by
    rcases htakes.way above hstem with hnone | hdirectory
    · cases hentry : v.tree.find? above with
      | none => exact Or.inl rfl
      | some entry =>
          have hfree : ¬touched above := fun htouched =>
            (hbeside above htouched).2 (hstem.trans (List.dropLast_prefix _))
          rw [h.toChanges.fresh hfree hnone hentry]
          exact Or.inr rfl
    · exact Or.inr (h.grown.directory above hdirectory)
  place := by
    rcases htakes.place with hnone | ⟨content, hfile⟩
    · left
      by_contra hsome
      obtain ⟨place, htouched, hon⟩ := h.onTheWay location hnone hsome
      exact (hbeside place htouched).1 hon
    · exact Or.inr (h.grown.file location content hfile)

/-- A file is written in a directory, where it is free or there is a file. -/
theorem write_of_takes (hp : p.Straight)
    (hdirectory : w.tree.isDirectory (p.place w.cwd).dropLast = true)
    (htakes : w.tree.Takes (p.place w.cwd)) (content : ByteArray) :
    ∃ v, (Host.write p content : Session (Except OsError Unit)) w = (.ok (), v) := by
  have hwrite : ∀ v, w.write p content = .ok v →
      (Host.write p content : Session (Except OsError Unit)) w = (.ok (), v) := by
    intro v hv
    show changeWorld (fun w => w.write p content) w = _
    rw [changeWorld, hv]
  rcases htakes.place with hfree | ⟨old, hfile⟩
  · obtain ⟨directory, name, habsent, -⟩ : ∃ directory name,
        lookup w.tree w.cwd .output p = .absent directory name ∧
          directory ++ [name] = p.place w.cwd :=
      lookup_free hp hdirectory hfree
    exact ⟨_, hwrite _ (by rw [World.write, habsent])⟩
  · refine ⟨w.setFile (p.place w.cwd) content, hwrite _ ?_⟩
    rw [World.write, lookup_taken hp hfile (by simp)]
    simp only [hfile]

end UseCases.Files
