/-
Where paths lead while the tree grows.

A path that leads somewhere leads there in every tree that extends the tree, since the search
meets the same directories and the same links.  A file that is made where a path found nothing
is found by that path from then on.
-/
import Mathlib.Tactic.Common
import UseCases.Files.Lookup
import UseCases.Proofs.Files.Tree
import UseCases.Proofs.Text.Scanning

namespace UseCases.Files

variable {t u : Tree} {purpose purpose' : Purpose} {cwd directory place : Location} {p : Path}
  {pieces rest : List String} {name : String}

/-- Induction along the pieces of a path, with the directory they are looked up in: a piece names
nothing, or the directory above, or an entry. -/
theorem walkInduction {motive : Location → List String → Prop}
    (nil : ∀ directory, motive directory [])
    (skip : ∀ directory name rest, name = "" ∨ name = "." → motive directory rest →
      motive directory (name :: rest))
    (up : ∀ directory rest, motive directory.dropLast rest → motive directory (".." :: rest))
    (plain : ∀ directory name rest, IsPlain name → motive (directory ++ [name]) rest →
      motive directory (name :: rest))
    (directory : Location) (pieces : List String) : motive directory pieces := by
  induction pieces generalizing directory with
  | nil => exact nil directory
  | cons name rest ih =>
      by_cases hskip : name = "" ∨ name = "."
      · exact skip directory name rest hskip (ih directory)
      · by_cases hup : name = ".."
        · rw [hup]
          exact up directory rest (ih directory.dropLast)
        · exact plain directory name rest ⟨hskip, hup⟩ (ih (directory ++ [name]))

theorem stretch_skip (h : name = "" ∨ name = ".") :
    stretch t purpose directory (name :: rest) = stretch t purpose directory rest := by
  rw [stretch, if_pos h]

theorem stretch_up :
    stretch t purpose directory (".." :: rest) = stretch t purpose directory.dropLast rest := by
  rw [stretch, if_neg (by decide), if_pos rfl]

/-- The search goes on to the entry that a piece names. -/
def Purpose.Admits (purpose : Purpose) (name : String) (rest : List String) : Prop :=
  ¬(purpose = .output ∧ isSlash rest = true) ∧ ¬maxName < Text.utf8Length name.toList

theorem stretch_refused (hplain : IsPlain name) (h : ¬purpose.Admits name rest) :
    ∃ e, stretch t purpose directory (name :: rest) = .ended (.failed e) := by
  rw [stretch, if_neg hplain.1, if_neg hplain.2]
  by_cases hslash : purpose = .output ∧ isSlash rest = true
  · exact ⟨.isADirectory, by rw [if_pos hslash]⟩
  · by_cases hlong : maxName < Text.utf8Length name.toList
    · exact ⟨.nameTooLong, by rw [if_neg hslash, if_pos hlong]⟩
    · exact absurd ⟨hslash, hlong⟩ h

section Entry

variable (hplain : IsPlain name) (hadmits : purpose.Admits name rest)
include hplain hadmits

theorem stretch_none (h : t.find? (directory ++ [name]) = none) :
    stretch t purpose directory (name :: rest) =
      if rest.isEmpty || isSlash rest then .ended (.absent directory name)
      else .ended (.failed .notFound) := by
  rw [stretch, if_neg hplain.1, if_neg hplain.2, if_neg hadmits.1, if_neg hadmits.2]
  simp only [h]

theorem stretch_directory (h : t.find? (directory ++ [name]) = some .directory) :
    stretch t purpose directory (name :: rest) =
      stretch t purpose (directory ++ [name]) rest := by
  rw [stretch, if_neg hplain.1, if_neg hplain.2, if_neg hadmits.1, if_neg hadmits.2]
  simp only [h]

theorem stretch_file {content : ByteArray}
    (h : t.find? (directory ++ [name]) = some (.file content)) :
    stretch t purpose directory (name :: rest) =
      if rest.isEmpty then .ended (.found (directory ++ [name]))
      else .ended (.failed .notADirectory) := by
  rw [stretch, if_neg hplain.1, if_neg hplain.2, if_neg hadmits.1, if_neg hadmits.2]
  simp only [h]

theorem stretch_link {target : String}
    (h : t.find? (directory ++ [name]) = some (.link target)) :
    stretch t purpose directory (name :: rest) =
      if rest.isEmpty && purpose == .entry then .ended (.found (directory ++ [name]))
      else .link directory target rest := by
  rw [stretch, if_neg hplain.1, if_neg hplain.2, if_neg hadmits.1, if_neg hadmits.2]
  simp only [h]

end Entry

/-- What a search comes to at a piece that names an entry. -/
inductive Encounter (t : Tree) (purpose : Purpose) (directory : Location) (name : String)
    (rest : List String) : Prop where
  | failed (e : OsError)
      (hs : stretch t purpose directory (name :: rest) = .ended (.failed e))
  | free (hadmits : purpose.Admits name rest) (hfree : t.find? (directory ++ [name]) = none)
      (hend : (rest.isEmpty || isSlash rest) = true)
      (hs : stretch t purpose directory (name :: rest) = .ended (.absent directory name))
  | enters (hadmits : purpose.Admits name rest)
      (hdirectory : t.find? (directory ++ [name]) = some .directory)
      (hs : stretch t purpose directory (name :: rest) =
        stretch t purpose (directory ++ [name]) rest)
  | file (hadmits : purpose.Admits name rest) (content : ByteArray)
      (hfile : t.find? (directory ++ [name]) = some (.file content)) (hlast : rest = [])
      (hs : stretch t purpose directory (name :: rest) = .ended (.found (directory ++ [name])))
  /-- A link at the end, which is what is looked for. -/
  | entry (hadmits : purpose.Admits name rest) (target : String)
      (hlink : t.find? (directory ++ [name]) = some (.link target)) (hentry : purpose = .entry)
      (hs : stretch t purpose directory (name :: rest) = .ended (.found (directory ++ [name])))
  | link (hadmits : purpose.Admits name rest) (target : String)
      (hlink : t.find? (directory ++ [name]) = some (.link target))
      (hgoesOn : (rest.isEmpty && purpose == .entry) = false)
      (hs : stretch t purpose directory (name :: rest) = .link directory target rest)

/-- A search comes to one of these at every such piece. -/
theorem encounter (t : Tree) (purpose : Purpose) (directory : Location) (rest : List String)
    (hplain : IsPlain name) : Encounter t purpose directory name rest := by
  by_cases hadmits : purpose.Admits name rest
  · rcases hfound : t.find? (directory ++ [name]) with - | content | - | target
    · have hs := stretch_none hplain hadmits hfound
      split at hs
      · rename_i hend
        exact .free hadmits hfound hend hs
      · exact .failed _ hs
    · have hs := stretch_file hplain hadmits hfound
      split at hs
      · rename_i hlast
        exact .file hadmits content hfound (List.isEmpty_iff.mp hlast) hs
      · exact .failed _ hs
    · exact .enters hadmits hfound (stretch_directory hplain hadmits hfound)
    · have hs := stretch_link hplain hadmits hfound
      split at hs
      · rename_i hentry
        exact .entry hadmits target hfound (by simpa using (Bool.and_eq_true_iff.mp hentry).2) hs
      · rename_i hgoesOn
        exact .link hadmits target hfound (Bool.not_eq_true _ ▸ hgoesOn) hs
  · obtain ⟨e, hs⟩ := stretch_refused hplain hadmits
    exact .failed e hs

/-! ### Searches that succeed -/

/-- The search came to an entry or to a link, not to a failure. -/
def Stretch.isSettled : Stretch → Bool
  | .ended (.found _) => true
  | .ended _ => false
  | .link _ _ _ => true

/-- What the first purpose finds the second one finds as well. -/
def Purpose.Covers (purpose purpose' : Purpose) : Prop :=
  purpose' = purpose ∨ purpose = .output ∧ purpose' = .target

theorem Purpose.Covers.admits (h : purpose.Covers purpose') (hadmits : purpose.Admits name rest) :
    purpose'.Admits name rest := by
  rcases h with rfl | ⟨-, rfl⟩
  · exact hadmits
  · refine ⟨?_, hadmits.2⟩
    intro houtput
    cases houtput.1

theorem Purpose.Covers.isEntry (h : purpose.Covers purpose') :
    (purpose' == .entry) = (purpose == .entry) := by
  rcases h with rfl | ⟨rfl, rfl⟩ <;> rfl

/-- A tree that extends the tree is searched the same way, as far as the search succeeds. -/
theorem stretch_extends (h : t.Extends u) (hcovers : purpose.Covers purpose')
    (hsettled : (stretch t purpose directory pieces).isSettled = true) :
    stretch u purpose' directory pieces = stretch t purpose directory pieces := by
  induction directory, pieces using walkInduction with
  | nil directory => rfl
  | skip directory name rest hskip ih =>
      rw [stretch_skip hskip] at hsettled ⊢
      rw [stretch_skip hskip, ih hsettled]
  | up directory rest ih =>
      rw [stretch_up] at hsettled ⊢
      rw [stretch_up, ih hsettled]
  | plain directory name rest hplain ih =>
      cases encounter t purpose directory rest hplain with
      | failed e hs | free _ _ _ hs =>
          rw [hs] at hsettled
          cases hsettled
      | enters hadmits hdirectory hs =>
          rw [hs] at hsettled ⊢
          rw [stretch_directory hplain (hcovers.admits hadmits) (h.directory _ hdirectory),
            ih hsettled]
      | file hadmits content hfile _ _ =>
          obtain ⟨content', hfile'⟩ := h.file _ _ hfile
          rw [stretch_file hplain hadmits hfile,
            stretch_file hplain (hcovers.admits hadmits) hfile']
      | entry hadmits target hlink _ _ | link hadmits target hlink _ _ =>
          rw [stretch_link hplain hadmits hlink,
            stretch_link hplain (hcovers.admits hadmits) ((h.link _ _).mpr hlink),
            hcovers.isEntry]

/-! ### Links -/

theorem followLinks_ended {links : Nat} {result : Lookup}
    (h : stretch t purpose directory pieces = .ended result) :
    followLinks t purpose links directory pieces = result := by
  rw [followLinks.eq_def, h]

theorem followLinks_link {links : Nat} {above : Location} {target : String}
    (h : stretch t purpose directory pieces = .link above target rest) :
    followLinks t purpose (links + 1) directory pieces =
      followLinks t purpose links (startOf above target) (pathPieces target ++ rest) := by
  rw [followLinks, h]

/-- Induction along the links of a search that is not given up for them: it ends on its first
stretch, or goes on at a link. -/
theorem followLinks_induction {result : Lookup} (hresult : result ≠ .failed .tooManyLinks)
    {motive : Nat → Location → List String → Prop}
    (ended : ∀ links directory pieces, stretch t purpose directory pieces = .ended result →
      motive links directory pieces)
    (link : ∀ links directory pieces above target rest,
      stretch t purpose directory pieces = .link above target rest →
      motive links (startOf above target) (pathPieces target ++ rest) →
      motive (links + 1) directory pieces)
    {links : Nat} (h : followLinks t purpose links directory pieces = result) :
    motive links directory pieces := by
  induction links generalizing directory pieces with
  | zero =>
      cases hs : stretch t purpose directory pieces with
      | ended lookup =>
          rw [followLinks_ended hs] at h
          exact ended 0 directory pieces (by rw [hs, h])
      | link above target rest =>
          rw [followLinks, hs] at h
          exact absurd h.symm hresult
  | succ links ih =>
      cases hs : stretch t purpose directory pieces with
      | ended lookup =>
          rw [followLinks_ended hs] at h
          exact ended (links + 1) directory pieces (by rw [hs, h])
      | link above target rest =>
          rw [followLinks_link hs] at h
          exact link links directory pieces above target rest hs (ih h)

theorem followLinks_extends (h : t.Extends u) (hcovers : purpose.Covers purpose') {links : Nat}
    (hfound : followLinks t purpose links directory pieces = .found place) :
    followLinks u purpose' links directory pieces = .found place := by
  refine followLinks_induction
    (motive := fun links directory pieces =>
      followLinks u purpose' links directory pieces = .found place)
    (by simp) (fun links directory pieces hs => ?ended)
    (fun links directory pieces above target rest hs ih => ?link) hfound
  case ended =>
    exact followLinks_ended (by rw [stretch_extends h hcovers (by rw [hs]; rfl), hs])
  case link =>
    rw [followLinks_link (by rw [stretch_extends h hcovers (by rw [hs]; rfl), hs])]
    exact ih

/-- The path is spelled so that a search for it starts at all. -/
structure Path.IsSearched (p : Path) : Prop where
  nul : '\x00' ∉ p.toList
  nonempty : p ≠ ""
  short : Text.utf8Length p.toList < maxPath

theorem Path.IsSearched.lookup (h : p.IsSearched) (t : Tree) (cwd : Location) (purpose : Purpose) :
    Files.lookup t cwd purpose p =
      followLinks t purpose maxLinks (startOf cwd p) (pathPieces p) := by
  rw [Files.lookup, if_neg (by simpa using h.nul), if_neg (by simpa using h.nonempty),
    if_neg (Nat.not_le.mpr h.short)]

/-- The spelling of a path makes every lookup fail in the same way, or none. -/
theorem lookup_cases (cwd : Location) (p : Path) :
    (∃ e, ∀ t purpose, lookup t cwd purpose p = .failed e) ∨ p.IsSearched := by
  unfold lookup
  split
  · exact Or.inl ⟨_, fun _ _ => rfl⟩
  rename_i hnul
  split
  · exact Or.inl ⟨_, fun _ _ => rfl⟩
  rename_i hempty
  split
  · exact Or.inl ⟨_, fun _ _ => rfl⟩
  rename_i hlong
  exact Or.inr ⟨by simpa using hnul, by simpa using hempty, Nat.lt_of_not_le hlong⟩

theorem isSearched_of_lookup {result : Lookup} (h : lookup t cwd purpose p = result)
    (hresult : ∀ e, result ≠ .failed e) : p.IsSearched := by
  rcases lookup_cases cwd p with ⟨e, hfailed⟩ | hsearched
  · exact absurd (h.symm.trans (hfailed t purpose)) (hresult e)
  · exact hsearched

/-- **A path that leads somewhere leads there in every tree that extends the tree.** -/
theorem lookup_extends (h : t.Extends u) (hcovers : purpose.Covers purpose')
    (hfound : lookup t cwd purpose p = .found place) : lookup u cwd purpose' p = .found place := by
  have hsearched := isSearched_of_lookup hfound (by simp)
  rw [hsearched.lookup] at hfound ⊢
  exact followLinks_extends h hcovers hfound

/-! ### Directories that no link at the end leads to -/

/-- The search came to a directory, or to a link. -/
def Stretch.Enters (t : Tree) : Stretch → Prop
  | .ended (.found place) => t.isDirectory place = true
  | .ended _ => False
  | .link _ _ _ => True

theorem stretch_target_of_entry (h : (stretch t .entry directory pieces).Enters t) :
    stretch t .target directory pieces = stretch t .entry directory pieces := by
  induction directory, pieces using walkInduction with
  | nil directory => rfl
  | skip directory name rest hskip ih =>
      rw [stretch_skip hskip] at h ⊢
      rw [stretch_skip hskip, ih h]
  | up directory rest ih =>
      rw [stretch_up] at h ⊢
      rw [stretch_up, ih h]
  | plain directory name rest hplain ih =>
      have hadmitted (hadmits : Purpose.entry.Admits name rest) :
          Purpose.target.Admits name rest := ⟨by simp, hadmits.2⟩
      cases encounter t .entry directory rest hplain with
      | failed e hs | free _ _ _ hs =>
          rw [hs] at h
          cases h
      | enters hadmits hdirectory hs =>
          rw [hs] at h ⊢
          rw [stretch_directory hplain (hadmitted hadmits) hdirectory, ih h]
      | file hadmits content hfile hlast hs =>
          rw [hs, stretch_file hplain (hadmitted hadmits) hfile, if_pos (List.isEmpty_iff.mpr hlast)]
      | entry hadmits target hlink _ hs =>
          -- A link at the end is no directory.
          rw [hs, Stretch.Enters, Tree.isDirectory, hlink] at h
          cases h
      | link hadmits target hlink _ hs =>
          rw [hs, stretch_link hplain (hadmitted hadmits) hlink, if_neg (by simp)]

theorem followLinks_target_of_entry {links : Nat} (hdir : t.isDirectory place = true)
    (hfound : followLinks t .entry links directory pieces = .found place) :
    followLinks t .target links directory pieces = .found place := by
  refine followLinks_induction
    (motive := fun links directory pieces =>
      followLinks t .target links directory pieces = .found place)
    (by simp) (fun links directory pieces hs => ?ended)
    (fun links directory pieces above target rest hs ih => ?link) hfound
  case ended =>
    exact followLinks_ended (by rw [stretch_target_of_entry (by rw [hs]; exact hdir), hs])
  case link =>
    rw [followLinks_link (by rw [stretch_target_of_entry (by rw [hs]; exact True.intro), hs])]
    exact ih

/-- **A path whose last name stands for a directory leads to that directory.** -/
theorem lookup_target_of_entry (hdir : t.isDirectory place = true)
    (hfound : lookup t cwd .entry p = .found place) : lookup t cwd .target p = .found place := by
  have hsearched := isSearched_of_lookup hfound (by simp)
  rw [hsearched.lookup] at hfound ⊢
  exact followLinks_target_of_entry hdir hfound

/-! ### Places that are free -/

/-- None of the pieces has a slash in it. -/
def Unslashed (pieces : List String) : Prop :=
  ∀ piece ∈ pieces, '/' ∉ piece.toList

theorem Unslashed.tail (h : Unslashed (name :: rest)) : Unslashed rest :=
  fun piece hpiece => h piece (List.mem_cons_of_mem name hpiece)

theorem Unslashed.append (h : Unslashed pieces) (h' : Unslashed rest) :
    Unslashed (pieces ++ rest) := fun piece hpiece =>
  (List.mem_append.mp hpiece).elim (h piece) (h' piece)

theorem slash_notMem_pieces {piece : List Char} (h : piece ∈ p.pieces) : '/' ∉ piece := by
  intro hslash
  have hcut := Text.eq_false_of_mem_splitAt h hslash
  cases hcut

theorem unslashed_pathPieces (p : Path) : Unslashed (pathPieces p) := by
  intro piece hpiece
  obtain ⟨cs, hcs, rfl⟩ := List.mem_map.mp hpiece
  rw [String.toList_ofList]
  exact slash_notMem_pieces hcs

/-- The search stands in a directory where it came to a link or to a place for an entry. -/
def Stretch.IsHeld (t : Tree) : Stretch → Prop
  | .ended (.absent directory name) => t.IsFree directory name
  | .ended _ => True
  | .link directory _ rest => t.isDirectory directory = true ∧ Unslashed rest

theorem stretch_isHeld (h : t.isDirectory directory = true) (hpieces : Unslashed pieces) :
    (stretch t purpose directory pieces).IsHeld t := by
  induction directory, pieces using walkInduction with
  | nil directory => exact True.intro
  | skip directory name rest hskip ih =>
      rw [stretch_skip hskip]
      exact ih h hpieces.tail
  | up directory rest ih =>
      rw [stretch_up]
      exact ih (Tree.isDirectory_dropLast h) hpieces.tail
  | plain directory name rest hplain ih =>
      cases encounter t purpose directory rest hplain with
      | failed e hs =>
          rw [hs]
          exact True.intro
      | free _ hfree _ hs =>
          rw [hs]
          exact ⟨h, hfree, hplain, hpieces name List.mem_cons_self⟩
      | enters _ hdirectory hs =>
          rw [hs]
          exact ih (by rw [Tree.isDirectory, hdirectory]; rfl) hpieces.tail
      | file _ _ _ _ hs | entry _ _ _ _ hs =>
          rw [hs]
          exact True.intro
      | link _ _ _ _ hs =>
          rw [hs]
          exact ⟨h, hpieces.tail⟩

theorem isDirectory_startOf (h : t.isDirectory directory = true) (p : Path) :
    t.isDirectory (startOf directory p) = true := by
  unfold startOf
  split
  · rfl
  · exact h

/-- A path that leads to no entry leads to a place for one. -/
theorem followLinks_absent {links : Nat} (h : t.isDirectory directory = true)
    (hpieces : Unslashed pieces) {above : Location}
    (habsent : followLinks t purpose links directory pieces = .absent above name) :
    t.IsFree above name := by
  revert h hpieces
  refine followLinks_induction
    (motive := fun links directory pieces => t.isDirectory directory = true →
      Unslashed pieces → t.IsFree above name)
    (by simp) (fun links directory pieces hs h hpieces => ?ended)
    (fun links directory pieces above' target rest hs ih h hpieces => ?link) habsent
  case ended =>
    have hheld : (stretch t purpose directory pieces).IsHeld t := stretch_isHeld h hpieces
    rw [hs] at hheld
    exact hheld
  case link =>
    have hheld : (stretch t purpose directory pieces).IsHeld t := stretch_isHeld h hpieces
    rw [hs] at hheld
    exact ih (isDirectory_startOf hheld.1 target) ((unslashed_pathPieces target).append hheld.2)

/-- A lookup that leads to no entry leads to a place for one. -/
theorem lookup_absent (hcwd : t.isDirectory cwd = true) {above : Location}
    (habsent : lookup t cwd purpose p = .absent above name) : t.IsFree above name := by
  have hsearched := isSearched_of_lookup habsent (by simp)
  rw [hsearched.lookup] at habsent
  exact followLinks_absent (isDirectory_startOf hcwd p) (unslashed_pathPieces p) habsent

/-- Once a file stands in the free place, the search for a file to write finds it. -/
theorem stretch_fill (h : t.Extends u) {above : Location} {content : ByteArray}
    (hfile : u.find? (above ++ [name]) = some (.file content))
    (habsent : stretch t .output directory pieces = .ended (.absent above name)) :
    stretch u .output directory pieces = .ended (.found (above ++ [name])) := by
  induction directory, pieces using walkInduction with
  | nil directory => cases habsent
  | skip directory piece rest hskip ih =>
      rw [stretch_skip hskip] at habsent ⊢
      exact ih habsent
  | up directory rest ih =>
      rw [stretch_up] at habsent ⊢
      exact ih habsent
  | plain directory piece rest hplain ih =>
      cases encounter t .output directory rest hplain with
      | failed e hs | file _ _ _ _ hs | entry _ _ _ _ hs | link _ _ _ _ hs =>
          rw [hs] at habsent
          cases habsent
      | free hadmits _ hend hs =>
          rw [hs] at habsent
          cases habsent
          have hslash : isSlash rest = false := by simpa using fun hs => hadmits.1 ⟨rfl, hs⟩
          rw [hslash, Bool.or_false] at hend
          rw [stretch_file hplain hadmits hfile, if_pos hend]
      | enters hadmits hdirectory hs =>
          rw [hs] at habsent
          rw [stretch_directory hplain hadmits (h.directory _ hdirectory)]
          exact ih habsent

theorem followLinks_fill (h : t.Extends u) {links : Nat} {above : Location} {content : ByteArray}
    (hfile : u.find? (above ++ [name]) = some (.file content))
    (habsent : followLinks t .output links directory pieces = .absent above name) :
    followLinks u .output links directory pieces = .found (above ++ [name]) := by
  refine followLinks_induction
    (motive := fun links directory pieces =>
      followLinks u .output links directory pieces = .found (above ++ [name]))
    (by simp) (fun links directory pieces hs => ?ended)
    (fun links directory pieces above' target rest hs ih => ?link) habsent
  case ended => exact followLinks_ended (stretch_fill h hfile hs)
  case link =>
    rw [followLinks_link (by rw [stretch_extends h (Or.inl rfl) (by rw [hs]; rfl), hs])]
    exact ih

/-- **A file that is made where its path found nothing is found by the path.** -/
theorem lookup_fill (hcwd : t.isDirectory cwd = true) (content : ByteArray) {above : Location}
    (habsent : lookup t cwd .output p = .absent above name) :
    (t.add above name (.file content)).find? (above ++ [name]) = some (.file content) ∧
      lookup (t.add above name (.file content)) cwd .output p = .found (above ++ [name]) := by
  have hfree := lookup_absent hcwd habsent
  have hsearched := isSearched_of_lookup habsent (by simp)
  rw [hsearched.lookup] at habsent ⊢
  have hfile : (t.add above name (.file content)).find? (above ++ [name]) = some (.file content) :=
    Tree.find?_add_self hfree
  have hextends : t.Extends (t.add above name (.file content)) := t.extends_add above name (by simp)
  exact ⟨hfile, followLinks_fill hextends hfile habsent⟩

end UseCases.Files
