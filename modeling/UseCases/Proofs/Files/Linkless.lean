/-
Trees without links.

Where no link stands, a path that never goes up leads to its place: its steps, from where it
starts.  That depends on the spelling of the path and on nothing else, so it is the same in all
trees, and a path sees of a tree only what stands on the way to its place.

Directories that are made on the way to other places do not change what a path leads to.  A path
that failed because something was missing fails in a tree with more directories for the same reason,
a little further on.  There is one exception: a name that is too long is refused only once the
directory before it is there.
-/
import UseCases.Proofs.Files.Ground

namespace UseCases.Files

variable {t u : Tree} {purpose : Purpose} {cwd directory location : Location} {p : Path}
  {pieces rest : List String} {name : String}

/-! ### Places -/

/-- No link stands anywhere in the tree. -/
def Tree.Linkless (t : Tree) : Prop :=
  ∀ location, t.IsUnlinked location

/-- Where a path leads if no link stands on its way and it never goes up. -/
def Path.place (cwd : Location) (p : Path) : Location :=
  startOf cwd p ++ p.steps

theorem Tree.linkless_iff : t.Linkless ↔ ∀ entry ∈ t.entries, t.IsUnlinked entry.1 := by
  constructor
  · exact fun h entry _ => h entry.1
  · intro h location target hlink
    cases location with
    | nil => cases hlink
    | cons name names =>
        rw [Tree.find?, if_neg (by simp)] at hlink
        refine h _ (mem_of_entryAt? hlink) target ?_
        rw [Tree.find?, if_neg (by simp), hlink]

instance (t : Tree) : Decidable t.Linkless :=
  decidable_of_iff _ Tree.linkless_iff.symm

theorem Tree.Linkless.extends (h : t.Linkless) (hgrown : t.Extends u) : u.Linkless :=
  fun location target hlink => h location target ((hgrown.link location target).mp hlink)

theorem descend_linkless (h : t.Linkless) (hup : ".." ∉ pieces) :
    descend t directory pieces = .ended (.found (directory ++ pieces.filter isStep)) := by
  induction directory, pieces using walkInduction with
  | nil directory => rw [List.filter_nil, List.append_nil]; rfl
  | skip directory name rest hskip ih =>
      have hstep : ¬isStep name = true := by
        rcases hskip with rfl | rfl <;> decide
      rw [descend_skip hskip, List.filter_cons_of_neg hstep]
      exact ih fun hmem => hup (List.mem_cons_of_mem _ hmem)
  | up directory rest ih => exact absurd List.mem_cons_self hup
  | plain directory name rest hplain ih =>
      rw [descend_unlinked hplain (h _), List.filter_cons_of_pos (isStep_of_isPlain hplain),
        List.append_cons directory name (rest.filter isStep)]
      exact ih fun hmem => hup (List.mem_cons_of_mem _ hmem)

/-- A path without a step up has none among its pieces. -/
theorem up_notMem_pathPieces (hup : ".." ∉ p.steps) : ".." ∉ pathPieces p :=
  fun hmem => hup (List.mem_filter.mpr ⟨hmem, by decide⟩)

/-- **Where no link stands, the destination of a path is its place.** -/
theorem destination_linkless (h : t.Linkless) (hup : ".." ∉ p.steps) :
    destination t cwd p = some (p.place cwd) := by
  rw [destination, descendLinks.eq_def, descend_linkless h (up_notMem_pathPieces hup)]
  rfl

theorem place_of_found (h : t.Linkless) (hup : ".." ∉ p.steps) (hpurpose : purpose ≠ .entry)
    (hfound : lookup t cwd purpose p = .found location) : location = p.place cwd := by
  have hplace := destination_of_lookup (Tree.Extends.refl t) hpurpose hfound
  rw [destination_linkless h hup] at hplace
  exact (Option.some.inj hplace).symm

theorem place_of_absent (h : t.Linkless) (hup : ".." ∉ p.steps)
    (habsent : lookup t cwd purpose p = .absent directory name) :
    directory ++ [name] = p.place cwd := by
  have hplace := destination_of_absent habsent
  rw [destination_linkless h hup] at hplace
  exact (Option.some.inj hplace).symm

/-- A path that begins like another one leads to a place on its way. -/
theorem place_prefix_of_steps {q : Path} (hstart : q.isAbsolute = p.isAbsolute)
    (hsteps : q.steps <+: p.steps) :
    q.place cwd <+: p.place cwd := by
  rw [Path.place, Path.place, startOf, startOf, hstart]
  exact (List.prefix_append_right_inj _).mpr hsteps

theorem place_join {folder : Path} (hplain : IsPlain name) (hslash : '/' ∉ name.toList) :
    (folder.join name).place cwd = folder.place cwd ++ [name] := by
  rw [Path.place, startOf_join hslash, steps_join hplain hslash, ← List.append_assoc]
  rfl

/-! ### Searches without links -/

theorem stretch_linkless (h : t.Linkless) (purpose : Purpose) (directory : Location)
    (pieces : List String) : ∃ result, stretch t purpose directory pieces = .ended result := by
  induction directory, pieces using walkInduction with
  | nil directory => exact ⟨_, rfl⟩
  | skip directory name rest hskip ih =>
      rw [stretch_skip hskip]
      exact ih
  | up directory rest ih =>
      rw [stretch_up]
      exact ih
  | plain directory name rest hplain ih =>
      cases encounter t purpose directory rest hplain with
      | failed _ hs | free _ _ _ hs | file _ _ _ _ hs | entry _ _ _ _ hs => exact ⟨_, hs⟩
      | enters _ _ hs =>
          rw [hs]
          exact ih
      | link _ target hlink _ _ => exact absurd hlink (h _ target)

/-- Without links a lookup is one stretch, unless it fails for the spelling of the path. -/
theorem lookup_linkless (cwd : Location) (p : Path) :
    (∃ e, ∀ t purpose, lookup t cwd purpose p = .failed e) ∨
      ∀ t purpose, t.Linkless →
        stretch t purpose (startOf cwd p) (pathPieces p) = .ended (lookup t cwd purpose p) := by
  refine (lookup_cases cwd p).imp_right fun hsearched t purpose h => ?_
  obtain ⟨result, hs⟩ := stretch_linkless h purpose (startOf cwd p) (pathPieces p)
  rw [hsearched.lookup, hs, followLinks_ended hs]

/-! ### Trees with less in them -/

/-- What stands at a location where something stood before is of the kind that it was. -/
theorem Tree.Extends.kind_back (h : t.Extends u) {entry : Entry}
    (hu : u.find? location = some entry) (ht : t.find? location ≠ none) :
    (entry = .directory → t.find? location = some .directory) ∧
      ∀ content, entry = .file content →
        ∃ content', t.find? location = some (.file content') := by
  cases hold : t.find? location with
  | none => exact absurd hold ht
  | some old =>
      cases old with
      | directory =>
          rw [h.directory location hold] at hu
          cases hu
          exact ⟨fun _ => rfl, fun _ hfile => (by cases hfile)⟩
      | file content =>
          obtain ⟨content', hfile⟩ := h.file location content hold
          rw [hfile] at hu
          cases hu
          exact ⟨fun hdirectory => (by cases hdirectory), fun _ _ => ⟨content, rfl⟩⟩
      | link target =>
          rw [(h.link location target).mpr hold] at hu
          cases hu
          exact ⟨fun hdirectory => (by cases hdirectory), fun _ hfile => (by cases hfile)⟩

/-- A search that succeeds in the grown tree succeeds in the tree, if something stood there. -/
theorem stretch_shrinks (h : t.Linkless) (hgrown : t.Extends u) (hpurpose : purpose ≠ .entry)
    (hup : ".." ∉ pieces) (hthere : t.find? location ≠ none)
    (hfound : stretch u purpose directory pieces = .ended (.found location)) :
    stretch t purpose directory pieces = .ended (.found location) := by
  induction directory, pieces using walkInduction with
  | nil directory => exact hfound
  | skip directory name rest hskip ih =>
      rw [stretch_skip hskip] at hfound ⊢
      exact ih (fun hmem => hup (List.mem_cons_of_mem _ hmem)) hfound
  | up directory rest ih => exact absurd List.mem_cons_self hup
  | plain directory name rest hplain ih =>
      have hrest : ".." ∉ rest := fun hmem => hup (List.mem_cons_of_mem _ hmem)
      cases encounter u purpose directory rest hplain with
      | failed e hs | free _ _ _ hs =>
          rw [hs] at hfound
          cases hfound
      | enters hadmits hdirectory hs =>
          rw [hs] at hfound
          have hlocation : location = directory ++ [name] ++ rest.filter isStep := by
            have hsame := descend_eq_stretch (Tree.Extends.refl u) hpurpose (by rw [hfound]; rfl)
            rw [hfound, descend_linkless (h.extends hgrown) hrest] at hsame
            cases hsame
            rfl
          have hon : t.find? (directory ++ [name]) ≠ none := by
            intro hnone
            rw [hlocation, t.find?_append_of_none hnone] at hthere
            exact hthere rfl
          rw [stretch_directory hplain hadmits ((hgrown.kind_back hdirectory hon).1 rfl)]
          exact ih hrest hfound
      | file hadmits content hfile hlast hs =>
          rw [hs] at hfound
          cases hfound
          obtain ⟨content', hfile'⟩ := (hgrown.kind_back hfile hthere).2 content rfl
          rw [stretch_file hplain hadmits hfile', if_pos (List.isEmpty_iff.mpr hlast)]
      | entry _ target hlink _ _ | link _ target hlink _ _ =>
          exact absurd hlink (h.extends hgrown _ target)

/-- **What a path leads to in the grown tree it led to before, if something stood there.** -/
theorem lookup_shrinks (h : t.Linkless) (hgrown : t.Extends u) (hpurpose : purpose ≠ .entry)
    (hup : ".." ∉ p.steps) (hthere : t.find? location ≠ none)
    (hfound : lookup u cwd purpose p = .found location) :
    lookup t cwd purpose p = .found location := by
  rcases lookup_linkless cwd p with ⟨e, hfailed⟩ | hstretch
  · rw [hfailed] at hfound
    cases hfound
  · have hs := hstretch u purpose (h.extends hgrown)
    rw [hfound] at hs
    have ht := stretch_shrinks h hgrown hpurpose (up_notMem_pathPieces hup) hthere hs
    rw [hstretch t purpose h] at ht
    exact Stretch.ended.inj ht

/-! ### Failures -/

/-- Why what a path leads to cannot be read, if the path does not lead to an entry. -/
def Lookup.failure? : Lookup → Option OsError
  | .found _ => none
  | .absent _ _ => some .notFound
  | .failed e => some e

/-- No name that is too long stands below a missing place. -/
def FitsBelow (t : Tree) : (directory : Location) → List String → Prop
  | _, [] => True
  | directory, name :: names =>
    (maxName < Text.utf8Length name.toList → t.find? directory ≠ none) ∧
      FitsBelow t (directory ++ [name]) names

/-- A name of the path that is too long stands, if anywhere, in what the tree has. -/
def Path.Fits (t : Tree) (cwd : Location) (p : Path) : Prop :=
  FitsBelow t (startOf cwd p) p.steps

theorem FitsBelow.of_missing {names : List String} (h : FitsBelow t directory names)
    (hmissing : t.find? directory = none) :
    ∀ name ∈ names, Text.utf8Length name.toList ≤ maxName := by
  induction names generalizing directory with
  | nil => simp
  | cons name names ih =>
      intro other hother
      rcases List.mem_cons.mp hother with rfl | hother
      · exact Nat.le_of_not_lt fun hlong => h.1 hlong hmissing
      · exact ih h.2 (t.find?_append_of_none hmissing [name]) other hother

theorem admits_target (h : Text.utf8Length name.toList ≤ maxName) :
    Purpose.target.Admits name rest := by
  refine ⟨?_, Nat.not_lt.mpr h⟩
  intro houtput
  cases houtput.1

theorem stretch_long (hplain : IsPlain name) (h : maxName < Text.utf8Length name.toList) :
    stretch t .target directory (name :: rest) = .ended (.failed .nameTooLong) := by
  have hpurpose : ¬(Purpose.target = .output ∧ isSlash rest = true) := fun houtput => by
    cases houtput.1
  rw [stretch, if_neg hplain.1, if_neg hplain.2, if_neg hpurpose, if_pos h]

/-- What a search misses is not found, be it the last piece or one on the way. -/
theorem failure_of_missing :
    ∃ result, (if rest.isEmpty || isSlash rest then Stretch.ended (.absent directory name)
      else .ended (.failed .notFound)) = .ended result ∧ result.failure? = some .notFound := by
  split <;> exact ⟨_, rfl, rfl⟩

/-- A search for what is missing goes through the directories that there are, and finds
nothing. -/
theorem stretch_missing (hup : ".." ∉ pieces)
    (hfits : ∀ name ∈ pieces.filter isStep, Text.utf8Length name.toList ≤ maxName)
    (hway : ∀ location, location <+: directory ++ pieces.filter isStep →
      t.find? location = none ∨ t.find? location = some .directory)
    (hdirectory : t.isDirectory directory = true)
    (hmissing : t.find? (directory ++ pieces.filter isStep) = none) :
    ∃ result, stretch t .target directory pieces = .ended result ∧
      result.failure? = some .notFound := by
  induction directory, pieces using walkInduction with
  | nil directory =>
      rw [List.filter_nil, List.append_nil, Tree.find?_eq_some_directory hdirectory] at hmissing
      cases hmissing
  | skip directory name rest hskip ih =>
      have hstep : ¬isStep name = true := by
        rcases hskip with rfl | rfl <;> decide
      rw [List.filter_cons_of_neg hstep] at hfits hway hmissing
      rw [stretch_skip hskip]
      exact ih (fun hmem => hup (List.mem_cons_of_mem _ hmem)) hfits hway hdirectory hmissing
  | up directory rest ih => exact absurd List.mem_cons_self hup
  | plain directory name rest hplain ih =>
      rw [List.filter_cons_of_pos (isStep_of_isPlain hplain)] at hfits hway hmissing
      have hadmits : Purpose.target.Admits name rest :=
        admits_target (hfits name List.mem_cons_self)
      rw [List.append_cons directory name] at hway hmissing
      rcases hway (directory ++ [name]) (List.prefix_append _ _) with hnone | hentry
      · rw [stretch_none hplain hadmits hnone]
        exact failure_of_missing
      · rw [stretch_directory hplain hadmits hentry]
        exact ih (fun hmem => hup (List.mem_cons_of_mem _ hmem))
          (fun piece hpiece => hfits piece (List.mem_cons_of_mem _ hpiece)) hway
          (by rw [Tree.isDirectory, hentry]; rfl) hmissing

/-- **More directories on the way do not change why a search fails**, if no name that is too long
stands below a missing place and nothing came to the place that is searched. -/
theorem stretch_failure (h : t.Linkless) (hgrown : t.Extends u) (hup : ".." ∉ pieces)
    (hfits : FitsBelow t directory (pieces.filter isStep))
    (hway : ∀ location, location <+: directory ++ pieces.filter isStep →
      t.find? location = none → u.find? location = none ∨ u.find? location = some .directory)
    (hplace : t.find? (directory ++ pieces.filter isStep) = none →
      u.find? (directory ++ pieces.filter isStep) = none) :
    ∃ result result', stretch t .target directory pieces = .ended result ∧
      stretch u .target directory pieces = .ended result' ∧ result'.failure? = result.failure? := by
  induction directory, pieces using walkInduction with
  | nil directory => exact ⟨_, _, rfl, rfl, rfl⟩
  | skip directory name rest hskip ih =>
      have hstep : ¬isStep name = true := by
        rcases hskip with rfl | rfl <;> decide
      rw [List.filter_cons_of_neg hstep] at hfits hway hplace
      rw [stretch_skip hskip, stretch_skip hskip]
      exact ih (fun hmem => hup (List.mem_cons_of_mem _ hmem)) hfits hway hplace
  | up directory rest ih => exact absurd List.mem_cons_self hup
  | plain directory name rest hplain ih =>
      have hrest : ".." ∉ rest := fun hmem => hup (List.mem_cons_of_mem _ hmem)
      rw [List.filter_cons_of_pos (isStep_of_isPlain hplain)] at hfits hway hplace
      by_cases hlong : maxName < Text.utf8Length name.toList
      · rw [stretch_long hplain hlong, stretch_long hplain hlong]
        exact ⟨_, _, rfl, rfl, rfl⟩
      have hadmits : Purpose.target.Admits name rest := admits_target (Nat.le_of_not_lt hlong)
      rw [List.append_cons directory name] at hway hplace
      cases hentry : t.find? (directory ++ [name]) with
      | none =>
          obtain ⟨result, hresult, hfailure⟩ :=
            @failure_of_missing directory rest name
          rw [stretch_none hplain hadmits hentry, hresult]
          rcases hway (directory ++ [name]) (List.prefix_append _ _) hentry with hnone | hmade
          · rw [stretch_none hplain hadmits hnone, hresult]
            exact ⟨_, _, rfl, rfl, rfl⟩
          · -- the directory is new, and what the rest of the path calls for is not in it
            have hdirectory : u.isDirectory (directory ++ [name]) = true := by
              rw [Tree.isDirectory, hmade]
              rfl
            have hbelow := t.find?_append_of_none hentry
            have hway' : ∀ location, location <+: directory ++ [name] ++ rest.filter isStep →
                u.find? location = none ∨ u.find? location = some .directory := by
              intro location hlocation
              rcases List.prefix_or_prefix_of_prefix hlocation (List.prefix_append _ _) with
                habove | ⟨names, rfl⟩
              · exact Or.inr (Tree.find?_eq_some_directory
                  (u.isDirectory_of_prefix habove hdirectory))
              · exact hway _ hlocation (hbelow names)
            obtain ⟨result', hresult', hfailure'⟩ :=
              stretch_missing hrest (hfits.2.of_missing hentry) hway' hdirectory (hplace (hbelow _))
            rw [stretch_directory hplain hadmits hmade, hresult']
            exact ⟨_, _, rfl, rfl, hfailure'.trans hfailure.symm⟩
      | some entry =>
          cases entry with
          | directory =>
              rw [stretch_directory hplain hadmits hentry,
                stretch_directory hplain hadmits (hgrown.directory _ hentry)]
              exact ih hrest hfits.2 hway hplace
          | file content =>
              obtain ⟨content', hfile⟩ := hgrown.file _ _ hentry
              rw [stretch_file hplain hadmits hentry, stretch_file hplain hadmits hfile]
              split <;> exact ⟨_, _, rfl, rfl, rfl⟩
          | link target => exact absurd hentry (h _ target)

end UseCases.Files
