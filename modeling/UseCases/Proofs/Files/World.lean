/-
What work in a world may change.

The program makes directories and writes files; it removes nothing and makes no link.  So the tree
of a world only grows, the working directory stays, and the files that may have changed are the
ones that were written.
-/
import UseCases.Files.World
import UseCases.Proofs.Files.Lookup

namespace UseCases.Files

variable {w v x : World} {p : Path}

namespace World

/-- The second world is the first one after some work that wrote files at `touched` places only. -/
structure Changes (touched : Location → Prop) (w v : World) : Prop where
  cwd : v.cwd = w.cwd
  grown : w.tree.Extends v.tree
  files : ∀ location, ¬touched location → ∀ content,
    v.tree.find? location = some (.file content) ↔ w.tree.find? location = some (.file content)

namespace Changes

variable {touched more : Location → Prop}

theorem refl (w : World) : w.Changes touched w :=
  ⟨rfl, Tree.Extends.refl w.tree, fun _ _ _ => Iff.rfl⟩

theorem trans (h : w.Changes touched v) (h' : v.Changes touched x) : w.Changes touched x where
  cwd := h'.cwd.trans h.cwd
  grown := h.grown.trans h'.grown
  files location hfree content :=
    (h'.files location hfree content).trans (h.files location hfree content)

theorem mono (h : w.Changes touched v) (hmore : ∀ location, touched location → more location) :
    w.Changes more v :=
  ⟨h.cwd, h.grown, fun location hfree =>
    h.files location fun htouched => hfree (hmore location htouched)⟩

/-- Work that wrote no file wrote none elsewhere. -/
theorem of_none (h : w.Changes (fun _ => False) v) : w.Changes touched v :=
  h.mono fun _ hfalse => hfalse.elim

/-- What a path led to it still leads to. -/
theorem lookup (h : w.Changes touched v) {purpose purpose' : Purpose} {location : Location}
    (hcovers : purpose.Covers purpose')
    (hfound : Files.lookup w.tree w.cwd purpose p = .found location) :
    Files.lookup v.tree v.cwd purpose' p = .found location := by
  rw [h.cwd]
  exact lookup_extends h.grown hcovers hfound

variable {location : Location} {entry : Entry}

/-- What was there stays, if only free places were touched. -/
theorem keeps (h : w.Changes touched v)
    (hfree : ∀ location, touched location → w.tree.find? location = none)
    (hfound : w.tree.find? location = some entry) : v.tree.find? location = some entry := by
  cases entry with
  | directory => exact h.grown.directory location hfound
  | link target => exact (h.grown.link location target).mpr hfound
  | file content =>
      refine (h.files location (fun htouched => ?_) content).mpr hfound
      rw [hfree location htouched] at hfound
      cases hfound

/-- What is new elsewhere than at a touched place is a directory. -/
theorem fresh (h : w.Changes touched v) (hfree : ¬touched location)
    (hmissing : w.tree.find? location = none) (hfound : v.tree.find? location = some entry) :
    entry = .directory := by
  cases entry with
  | directory => rfl
  | link target =>
      rw [(h.grown.link location target).mp hfound] at hmissing
      cases hmissing
  | file content =>
      rw [(h.files location hfree content).mp hfound] at hmissing
      cases hmissing

/-- Where the trees differ, there is a new directory or a file that was touched. -/
theorem cases_of_ne (h : w.Changes touched v)
    (hne : v.tree.find? location ≠ w.tree.find? location) :
    (w.tree.find? location = none ∧ v.tree.find? location = some .directory) ∨
      (touched location ∧ ∃ content, v.tree.find? location = some (.file content)) := by
  have hfile : ∀ content, v.tree.find? location = some (.file content) → touched location := by
    intro content hnew
    by_contra hfree
    exact hne (hnew.trans ((h.files location hfree content).mp hnew).symm)
  cases hold : w.tree.find? location with
  | none =>
      cases hnew : v.tree.find? location with
      | none => exact absurd (hnew.trans hold.symm) hne
      | some entry =>
          cases entry with
          | directory => exact Or.inl ⟨rfl, rfl⟩
          | file content => exact Or.inr ⟨hfile content hnew, content, rfl⟩
          | link target => cases hold.symm.trans ((h.grown.link location target).mp hnew)
  | some entry =>
      rcases h.grown.keeps hold with hkept | ⟨_, content, -, hnew⟩
      · exact absurd (hkept.trans hold.symm) hne
      · exact Or.inr ⟨hfile content hnew, content, hnew⟩

/-- A path that leads to a file or a directory leads to one from then on. -/
theorem kind? (h : w.Changes touched v) {kind : Kind} (hkind : w.kind? p = some kind) :
    v.kind? p = some kind := by
  unfold World.kind? at hkind ⊢
  split at hkind
  · rename_i place hfound
    rw [show v.target p = .found place from h.lookup (Or.inl rfl) hfound]
    split at hkind
    · rename_i content hfile
      obtain ⟨content', hfile'⟩ := h.grown.file place content hfile
      simp only [hfile']
      exact hkind
    · rename_i hdirectory
      simp only [h.grown.directory place hdirectory]
      exact hkind
    · cases hkind
  · cases hkind

end Changes

/-! ### Operations -/

/-- Where a path leads to no entry, one can be added. -/
theorem isFree_of_absent {purpose : Purpose} {directory : Location} {name : String}
    (h : Files.lookup w.tree w.cwd purpose p = .absent directory name) :
    w.tree.IsFree directory name :=
  lookup_absent w.isDirectory_cwd h

theorem changes_makeDirectory (h : w.makeDirectory p = .ok v) : w.Changes (fun _ => False) v := by
  unfold makeDirectory at h
  split at h
  · cases h
  · cases h
  · rename_i directory name hlookup
    cases h
    refine ⟨rfl, w.tree.extends_add directory name (by simp), fun location _ content => ?_⟩
    constructor
    · intro hfile
      rcases Tree.find?_add_cases hfile with hfile | ⟨-, hfile⟩
      · exact hfile
      · cases hfile
    · exact Tree.find?_add_of_some

/-- **A file that was written is found by its path, with its content**, and no other file
changed. -/
theorem write_ok {content : ByteArray} (h : w.write p content = .ok v) :
    ∃ location, Files.lookup v.tree v.cwd .output p = .found location ∧
      v.tree.find? location = some (.file content) ∧ w.Changes (· = location) v := by
  unfold write at h
  split at h
  · cases h
  · rename_i directory name hlookup
    cases h
    obtain ⟨hfile, hfound⟩ := lookup_fill w.isDirectory_cwd content hlookup
    have hgrown : w.tree.Extends (w.tree.add directory name (.file content)) :=
      w.tree.extends_add directory name (by simp)
    refine ⟨directory ++ [name], hfound, hfile, rfl, hgrown, ?_⟩
    intro location hne content'
    rw [tree_add, Tree.find?_add_ne hne]
  · rename_i location hlookup
    split at h
    · rename_i old hold
      cases h
      have hgrown := w.tree.extends_setFile location content
      refine ⟨location, lookup_extends hgrown (Or.inl rfl) hlookup, ?_, rfl, hgrown, ?_⟩
      · rw [tree_setFile, Tree.find?_setFile, hold, Option.map_some, if_pos rfl, Entry.refilled]
      · intro location' hne content'
        rw [tree_setFile, Tree.find?_setFile]
        simp only [if_neg hne, Option.map_id']
    · cases h

theorem read_eq_ok {location : Location} {content : ByteArray}
    (hfound : w.target p = .found location)
    (hfile : w.tree.find? location = some (.file content)) : w.read p = .ok content := by
  rw [read, hfound]
  simp only [hfile]

/-- There is something at a path that leads somewhere. -/
theorem target_of_kind? (h : (w.kind? p).isSome = true) :
    ∃ location, w.target p = .found location := by
  unfold kind? at h
  split at h
  · rename_i location hfound
    exact ⟨location, hfound⟩
  · cases h

/-- A path that is read leads to a file. -/
theorem file_of_read {content : ByteArray} (h : w.read p = .ok content) :
    ∃ location, w.target p = .found location ∧
      w.tree.find? location = some (.file content) := by
  unfold read at h
  split at h
  · cases h
  · cases h
  · rename_i location hfound
    split at h
    · rename_i content' hfile
      cases h
      exact ⟨location, hfound, hfile⟩
    · cases h

/-- What a path that leads to a file or a directory leads to is read the same, if only free places
were touched. -/
theorem Changes.read (h : w.Changes (fun location => w.tree.find? location = none) v) {kind : Kind}
    (hkind : w.kind? p = some kind) : v.read p = w.read p := by
  unfold World.kind? at hkind
  split at hkind
  · rename_i place hfound
    have hfound' : v.target p = .found place := h.lookup (Or.inl rfl) hfound
    rw [World.read, World.read, hfound, hfound']
    cases hentry : w.tree.find? place with
    | none =>
        rw [hentry] at hkind
        cases hkind
    | some entry => simp only [hentry, h.keeps (fun _ hfree => hfree) hentry]
  · cases hkind

/-- A path that leads to no file and no directory is not read. -/
theorem read_of_none (h : w.kind? p = none) : ∃ e, w.read p = .error e := by
  cases hread : w.read p with
  | error e => exact ⟨e, rfl⟩
  | ok content =>
      obtain ⟨location, hfound, hfile⟩ := file_of_read hread
      rw [kind?, hfound] at h
      simp only [hfile] at h
      cases h

theorem kind?_of_file {location : Location} {content : ByteArray}
    (hfound : w.target p = .found location)
    (hfile : w.tree.find? location = some (.file content)) : w.kind? p = some .file := by
  rw [kind?, hfound]
  simp only [hfile]

/-- A file is written in a free place, or where its path leads to a file. -/
theorem write_cases {content : ByteArray} (h : w.write p content = .ok v) :
    (∃ directory name, Files.lookup w.tree w.cwd .output p = .absent directory name) ∨
      w.kind? p = some .file := by
  unfold write at h
  split at h
  · cases h
  · rename_i directory name hlookup
    exact Or.inl ⟨directory, name, hlookup⟩
  · rename_i location hlookup
    split at h
    · rename_i old hold
      exact Or.inr (kind?_of_file
        (lookup_extends (Tree.Extends.refl w.tree) (Or.inr ⟨rfl, rfl⟩) hlookup) hold)
    · cases h

end World

end UseCases.Files
