/-
How a file tree grows.

A tree that only gets new directories and files, and new content in files it has, extends the
tree it was: what stood at a location is still there and of its kind, and nothing became a link.
-/
import UseCases.Files.Tree

namespace UseCases.Files

/-- The entry with new content, if it is a file. -/
def Entry.refilled (content : ByteArray) : Entry → Entry
  | .file _ => .file content
  | .directory => .directory
  | .link target => .link target

theorem entryAt?_append (location : Location) (entries more : List (Location × Entry)) :
    entryAt? location (entries ++ more) =
      (entryAt? location entries).or (entryAt? location more) := by
  induction entries with
  | nil => rfl
  | cons p rest ih =>
      simp only [List.cons_append, entryAt?]
      by_cases h : p.1 = location
      · rw [if_pos h, if_pos h, Option.some_or]
      · rw [if_neg h, if_neg h, ih]

namespace Tree

variable {t u v : Tree} {directory location : Location} {name : String} {entry : Entry}

theorem find?_append_singleton (t : Tree) (directory : Location) (name : String) :
    t.find? (directory ++ [name]) = entryAt? (directory ++ [name]) t.entries := by
  rw [find?, if_neg (by simp)]

theorem find?_eq_some_directory (h : t.isDirectory location = true) :
    t.find? location = some .directory := by
  obtain ⟨entry, hentry, hdir⟩ := (Option.any_eq_true _ _).mp h
  rw [hentry, eq_directory_of_isDirectory hdir]

theorem refill_snd (location : Location) (content : ByteArray) (p : Location × Entry) :
    (refill location content p).2 = if p.1 = location then p.2.refilled content else p.2 := by
  obtain ⟨l, entry⟩ := p
  cases entry <;> simp only [refill, Entry.refilled] <;> split <;> rfl

theorem entryAt?_map_refill (place location : Location) (content : ByteArray)
    (entries : List (Location × Entry)) :
    entryAt? location (entries.map (refill place content)) =
      (entryAt? location entries).map fun entry =>
        if location = place then entry.refilled content else entry := by
  induction entries with
  | nil => rfl
  | cons p rest ih =>
      simp only [List.map_cons, entryAt?, refill_fst, refill_snd]
      by_cases h : p.1 = location
      · rw [if_pos h, if_pos h, Option.map_some, h]
      · rw [if_neg h, if_neg h, ih]

/-- An entry of this name can be added in the directory. -/
structure IsFree (t : Tree) (directory : Location) (name : String) : Prop where
  isDirectory : t.isDirectory directory = true
  missing : t.find? (directory ++ [name]) = none
  isFileName : IsFileName name

theorem find?_add_self (h : t.IsFree directory name) :
    (t.add directory name entry).find? (directory ++ [name]) = some entry := by
  have hfree := h.missing
  rw [find?_append_singleton] at hfree ⊢
  rw [add, dif_pos ⟨h.isDirectory, by rw [hfree]; rfl, h.isFileName⟩]
  simp only [entryAt?_append, hfree, Option.none_or, entryAt?, if_pos]

theorem find?_add_ne (h : location ≠ directory ++ [name]) :
    (t.add directory name entry).find? location = t.find? location := by
  unfold add
  split
  · simp only [find?, entryAt?_append, entryAt?, if_neg h.symm, Option.or_none]
  · rfl

/-- What was there stays when an entry is added. -/
theorem find?_add_of_some {old : Entry} (h : t.find? location = some old) :
    (t.add directory name entry).find? location = some old := by
  by_cases hl : location = directory ++ [name]
  · unfold add
    split
    · rename_i hadd
      rw [hl, find?_append_singleton] at h
      rw [h] at hadd
      exact absurd hadd.2.1 Bool.false_ne_true
    · exact h
  · rw [find?_add_ne hl, h]

/-- What is there after an entry was added was there before or is that entry. -/
theorem find?_add_cases {new : Entry} (h : (t.add directory name entry).find? location = some new) :
    t.find? location = some new ∨ location = directory ++ [name] ∧ new = entry := by
  unfold add at h
  split at h
  · rename_i hadd
    by_cases hroot : location = []
    · rw [find?, if_pos hroot] at h ⊢
      exact Or.inl h
    · rw [find?, if_neg hroot] at h ⊢
      rw [entryAt?_append, Option.or_eq_some_iff] at h
      rcases h with h | ⟨-, h⟩
      · exact Or.inl h
      · rw [entryAt?, entryAt?] at h
        split at h
        · rename_i hl
          exact Or.inr ⟨hl.symm, (Option.some.inj h).symm⟩
        · cases h
  · exact Or.inl h

theorem find?_setFile (t : Tree) (place location : Location) (content : ByteArray) :
    (t.setFile place content).find? location =
      (t.find? location).map fun entry =>
        if location = place then entry.refilled content else entry := by
  by_cases hroot : location = []
  · simp only [find?, if_pos hroot, Option.map_some]
    split <;> rfl
  · simp only [find?, if_neg hroot]
    exact entryAt?_map_refill place location content t.entries

/-! ### Growing -/

/-- The second tree holds all that the first one holds, up to the content of files, and has no
link that the first one does not have. -/
structure Extends (t u : Tree) : Prop where
  directory : ∀ location, t.find? location = some .directory → u.find? location = some .directory
  file : ∀ location content, t.find? location = some (.file content) →
    ∃ content', u.find? location = some (.file content')
  link : ∀ location target,
    u.find? location = some (.link target) ↔ t.find? location = some (.link target)

namespace Extends

theorem refl (t : Tree) : t.Extends t :=
  ⟨fun _ h => h, fun _ content h => ⟨content, h⟩, fun _ _ => Iff.rfl⟩

theorem trans (h : t.Extends u) (h' : u.Extends v) : t.Extends v where
  directory location hfound := h'.directory location (h.directory location hfound)
  file location content hfound := by
    obtain ⟨content', hfile⟩ := h.file location content hfound
    exact h'.file location content' hfile
  link location target := (h'.link location target).trans (h.link location target)

theorem isDirectory (h : t.Extends u) (hdir : t.isDirectory location = true) :
    u.isDirectory location = true := by
  rw [Tree.isDirectory, h.directory location (find?_eq_some_directory hdir)]
  rfl

/-- What was found stays, and a file stays a file. -/
theorem keeps (h : t.Extends u) {entry : Entry} (hfound : t.find? location = some entry) :
    u.find? location = some entry ∨
      ∃ content content', entry = .file content ∧ u.find? location = some (.file content') := by
  cases entry with
  | directory => exact Or.inl (h.directory location hfound)
  | link target => exact Or.inl ((h.link location target).mpr hfound)
  | file content =>
      obtain ⟨content', hfile⟩ := h.file location content hfound
      exact Or.inr ⟨content, content', rfl, hfile⟩

end Extends

/-- A tree with one more entry extends the tree, unless the entry is a link. -/
theorem extends_add (t : Tree) (directory : Location) (name : String) {entry : Entry}
    (hentry : ∀ target, entry ≠ .link target) : t.Extends (t.add directory name entry) where
  directory location h := find?_add_of_some h
  file location content h := ⟨content, find?_add_of_some h⟩
  link location target := by
    constructor
    · intro h
      rcases find?_add_cases h with h | ⟨-, h⟩
      · exact h
      · exact absurd h.symm (hentry target)
    · exact find?_add_of_some

/-- A tree with a file filled anew extends the tree. -/
theorem extends_setFile (t : Tree) (place : Location) (content : ByteArray) :
    t.Extends (t.setFile place content) where
  directory location h := by
    rw [find?_setFile, h, Option.map_some]
    split <;> rfl
  file location old h := by
    rw [find?_setFile, h, Option.map_some]
    split
    · exact ⟨content, rfl⟩
    · exact ⟨old, rfl⟩
  link location target := by
    rw [find?_setFile]
    cases t.find? location with
    | none => simp
    | some entry => cases entry <;> simp only [Option.map_some, Entry.refilled] <;> split <;> simp

/-! ### The way to an entry -/

/-- An entry lies in a directory. -/
theorem isDirectory_above (h : t.find? (directory ++ [name]) = some entry) :
    t.isDirectory directory = true := by
  rw [find?_append_singleton] at h
  obtain ⟨above, last, heq, hholds⟩ := t.rooted _ (mem_of_entryAt? h)
  obtain ⟨rfl, -⟩ := List.append_inj' heq rfl
  exact isDirectory_iff.mpr hholds

/-- A directory lies in a directory. -/
theorem isDirectory_dropLast (h : t.isDirectory location = true) :
    t.isDirectory location.dropLast = true := by
  rcases List.eq_nil_or_concat location with rfl | ⟨above, name, rfl⟩
  · rfl
  · rw [List.concat_eq_append] at h ⊢
    rw [List.dropLast_concat]
    exact isDirectory_above (find?_eq_some_directory h)

/-- What a directory lies in is a directory, all the way up. -/
theorem isDirectory_of_prefix (t : Tree) {above : Location} (hstem : above <+: location)
    (h : t.isDirectory location = true) : t.isDirectory above = true := by
  obtain ⟨names, rfl⟩ := hstem
  induction names generalizing above with
  | nil => rwa [List.append_nil] at h
  | cons name names ih =>
      rw [List.append_cons] at h
      exact isDirectory_above (find?_eq_some_directory (ih h))

/-- On the way to what is in the tree there are directories. -/
theorem isDirectory_on_way {above : Location} (h : t.find? location = some entry)
    (hstem : above <+: location) (hne : above ≠ location) : t.isDirectory above = true := by
  rcases List.eq_nil_or_concat location with rfl | ⟨front, name, rfl⟩
  · exact absurd (List.prefix_nil.mp hstem) hne
  · rw [List.concat_eq_append] at h hstem hne
    have hfront := (List.prefix_concat_iff.mp hstem).resolve_left hne
    exact t.isDirectory_of_prefix hfront (isDirectory_above h)

/-- Nothing lies below a place that holds nothing. -/
theorem find?_append_of_none (h : t.find? location = none) (names : List String) :
    t.find? (location ++ names) = none := by
  induction names generalizing location with
  | nil => rw [List.append_nil, h]
  | cons name names ih =>
      rw [List.append_cons]
      refine ih ?_
      cases hfound : t.find? (location ++ [name]) with
      | none => rfl
      | some entry =>
          have habove := find?_eq_some_directory (isDirectory_above hfound)
          rw [h] at habove
          cases habove

end Tree

end UseCases.Files
