/-
File trees.

A tree assigns an entry to each location, a location being the names on the way from the
root. The root itself is a directory and has no entry. Three facts hold of every tree: no
location has two entries, every entry lies in a directory, and every name is one that a file
can have. They are kept by the three operations below, which do nothing where they would
break them.
-/
namespace UseCases.Files

/-- The piece of a path names an entry of the directory that it is looked up in. -/
def IsPlain (name : String) : Prop :=
  ¬(name = "" ∨ name = ".") ∧ name ≠ ".."

instance {name : String} : Decidable (IsPlain name) :=
  inferInstanceAs (Decidable (¬(name = "" ∨ name = ".") ∧ name ≠ ".."))

/-- A name that a file can have: a path has it as one piece, and the piece names an entry. -/
def IsFileName (name : String) : Prop :=
  IsPlain name ∧ '/' ∉ name.toList

instance {name : String} : Decidable (IsFileName name) :=
  inferInstanceAs (Decidable (IsPlain name ∧ '/' ∉ name.toList))

/-- The names on the way from the root to a file or directory. -/
abbrev Location := List String

/-- What stands at a location. -/
inductive Entry where
  | file (content : ByteArray)
  | directory
  /-- A symbolic link and the path it holds. -/
  | link (target : String)

/-- The entry is a directory. -/
def Entry.isDirectory : Entry → Bool
  | .directory => true
  | _ => false

theorem eq_directory_of_isDirectory {entry : Entry} (h : entry.isDirectory = true) :
    entry = .directory := by
  cases entry with
  | directory => rfl
  | file _ => cases h
  | link _ => cases h

/-- The first entry of a location. -/
def entryAt? (location : Location) : List (Location × Entry) → Option Entry
  | [] => none
  | (l, entry) :: rest => if l = location then some entry else entryAt? location rest

/-- The location is the root or has a directory as an entry. -/
def HoldsDirectory (entries : List (Location × Entry)) (location : Location) : Prop :=
  location = [] ∨ (location, Entry.directory) ∈ entries

/-- A file tree. -/
structure Tree where
  entries : List (Location × Entry)
  /-- No location has two entries. -/
  distinct : (entries.map Prod.fst).Nodup
  /-- Every entry has a name and lies in a directory. -/
  rooted : ∀ p ∈ entries, ∃ directory name,
    p.1 = directory ++ [name] ∧ HoldsDirectory entries directory
  /-- The names on the way to an entry, and its own, are names that files can have. -/
  named : ∀ p ∈ entries, ∀ name ∈ p.1, IsFileName name

theorem entryAt?_eq_none {location : Location} {entries : List (Location × Entry)}
    (h : entryAt? location entries = none) : location ∉ entries.map Prod.fst := by
  induction entries with
  | nil => simp
  | cons p rest ih =>
    obtain ⟨l, entry⟩ := p
    simp only [entryAt?] at h
    split at h
    · cases h
    · rename_i hne
      simp only [List.map_cons, List.mem_cons, not_or]
      exact ⟨fun he => hne he.symm, ih h⟩

theorem mem_of_entryAt? {location : Location} {entry : Entry}
    {entries : List (Location × Entry)} (h : entryAt? location entries = some entry) :
    (location, entry) ∈ entries := by
  induction entries with
  | nil => simp [entryAt?] at h
  | cons p rest ih =>
    obtain ⟨l, e⟩ := p
    simp only [entryAt?] at h
    split at h
    · rename_i he
      cases h
      exact he ▸ List.mem_cons_self
    · exact List.mem_cons_of_mem _ (ih h)

/-- As no location has two entries, the entry of a location is found. -/
theorem entryAt?_of_mem {location : Location} {entry : Entry} {entries : List (Location × Entry)}
    (hdistinct : (entries.map Prod.fst).Nodup) (h : (location, entry) ∈ entries) :
    entryAt? location entries = some entry := by
  induction entries with
  | nil => cases h
  | cons p rest ih =>
    rw [List.map_cons, List.nodup_cons] at hdistinct
    rw [entryAt?]
    rcases List.mem_cons.mp h with rfl | h
    · rw [if_pos rfl]
    · have hne : p.1 ≠ location := by
        intro he
        exact hdistinct.1 (he ▸ List.mem_map.mpr ⟨_, h, rfl⟩)
      rw [if_neg hne]
      exact ih hdistinct.2 h

theorem HoldsDirectory.mono {entries more : List (Location × Entry)} {location : Location}
    (h : HoldsDirectory entries location) (sub : ∀ p ∈ entries, p ∈ more) :
    HoldsDirectory more location :=
  h.imp_right fun hmem => sub _ hmem

namespace Tree

/-- The tree of an empty root. -/
def empty : Tree := ⟨[], by simp, by simp, by simp⟩

/-- What stands at a location; the root is a directory. -/
def find? (t : Tree) (location : Location) : Option Entry :=
  if location = [] then some .directory else entryAt? location t.entries

/-- There is a directory at the location. -/
def isDirectory (t : Tree) (location : Location) : Bool :=
  (t.find? location).any Entry.isDirectory

theorem isDirectory_iff {t : Tree} {location : Location} :
    t.isDirectory location = true ↔ HoldsDirectory t.entries location := by
  rw [isDirectory, find?]
  constructor
  · intro h
    split at h
    · rename_i he
      exact Or.inl he
    · obtain ⟨entry, hentry, hdir⟩ := (Option.any_eq_true _ _).1 h
      rw [eq_directory_of_isDirectory hdir] at hentry
      exact Or.inr (mem_of_entryAt? hentry)
  · rintro (rfl | hmem)
    · rfl
    · rw [entryAt?_of_mem t.distinct hmem]
      split <;> rfl

/-- The names on the way to a directory are names that files can have. -/
theorem named_of_isDirectory {t : Tree} {location : Location} (h : t.isDirectory location = true) :
    ∀ name ∈ location, IsFileName name := by
  rcases isDirectory_iff.mp h with rfl | hmem
  · simp
  · exact t.named _ hmem

/-- The tree with a new entry in a directory, if the directory exists and has no entry of
that name, which is one that a file can have. -/
def add (t : Tree) (directory : Location) (name : String) (entry : Entry) : Tree :=
  if h : t.isDirectory directory = true ∧
      (entryAt? (directory ++ [name]) t.entries).isNone = true ∧ IsFileName name then
    { entries := t.entries ++ [(directory ++ [name], entry)]
      distinct := by
        rw [List.map_append, List.nodup_append]
        refine ⟨t.distinct, by simp, ?_⟩
        intro a ha b hb
        simp only [List.map_cons, List.map_nil, List.mem_singleton] at hb
        subst hb
        exact fun he => entryAt?_eq_none (Option.isNone_iff_eq_none.1 h.2.1) (he ▸ ha)
      rooted := by
        intro p hp
        have keep : ∀ q ∈ t.entries, q ∈ t.entries ++ [(directory ++ [name], entry)] :=
          fun q hq => List.mem_append_left _ hq
        rcases List.mem_append.1 hp with hp | hp
        · obtain ⟨d, n, he, hd⟩ := t.rooted p hp
          exact ⟨d, n, he, hd.mono keep⟩
        · simp only [List.mem_singleton] at hp
          subst hp
          exact ⟨directory, name, rfl, (isDirectory_iff.1 h.1).mono keep⟩
      named := by
        intro p hp n hn
        rcases List.mem_append.1 hp with hp | hp
        · exact t.named p hp n hn
        · simp only [List.mem_singleton] at hp
          subst hp
          rcases List.mem_append.1 hn with hn | hn
          · exact named_of_isDirectory h.1 n hn
          · exact List.mem_singleton.1 hn ▸ h.2.2 }
  else t

/-- An entry after the file at `location` got new content; only a file has content. -/
def refill (location : Location) (content : ByteArray) (p : Location × Entry) :
    Location × Entry :=
  match p.2 with
  | .file _ => if p.1 = location then (p.1, .file content) else p
  | _ => p

theorem refill_fst (location : Location) (content : ByteArray) (p : Location × Entry) :
    (refill location content p).1 = p.1 := by
  unfold refill
  split
  · split <;> rfl
  · rfl

theorem holdsDirectory_refill {entries : List (Location × Entry)} {location : Location}
    (h : HoldsDirectory entries location) (place : Location) (content : ByteArray) :
    HoldsDirectory (entries.map (refill place content)) location :=
  h.imp_right fun hmem => List.mem_map.2 ⟨_, hmem, rfl⟩

/-- The tree with new content in the file at a location, if there is one. -/
def setFile (t : Tree) (location : Location) (content : ByteArray) : Tree where
  entries := t.entries.map (refill location content)
  distinct := by
    rw [List.map_map]
    have h : Prod.fst ∘ refill location content = Prod.fst :=
      funext fun p => refill_fst location content p
    rw [h]
    exact t.distinct
  rooted := by
    intro p hp
    obtain ⟨q, hq, rfl⟩ := List.mem_map.1 hp
    obtain ⟨d, n, he, hd⟩ := t.rooted q hq
    exact ⟨d, n, (refill_fst location content q).trans he, holdsDirectory_refill hd location content⟩
  named := by
    intro p hp
    obtain ⟨q, hq, rfl⟩ := List.mem_map.1 hp
    rw [refill_fst]
    exact t.named q hq

/-- The entry stands elsewhere than `location`, or is a directory. -/
def survives (location : Location) (p : Location × Entry) : Bool :=
  p.1 != location || p.2.isDirectory

theorem holdsDirectory_survives {entries : List (Location × Entry)} {location : Location}
    (h : HoldsDirectory entries location) (place : Location) :
    HoldsDirectory (entries.filter (survives place)) location :=
  h.imp_right fun hmem => List.mem_filter.2 ⟨hmem, by simp [survives, Entry.isDirectory]⟩

/-- The tree without the file or link at a location. -/
def removeFile (t : Tree) (location : Location) : Tree where
  entries := t.entries.filter (survives location)
  distinct := t.distinct.sublist (List.filter_sublist.map _)
  rooted := by
    intro p hp
    obtain ⟨hp, _⟩ := List.mem_filter.1 hp
    obtain ⟨d, n, he, hd⟩ := t.rooted p hp
    exact ⟨d, n, he, holdsDirectory_survives hd location⟩
  named p hp := t.named p (List.mem_filter.1 hp).1

/-! ### Directories stay -/

section Directories

variable {t : Tree} {location : Location}

theorem isDirectory_add (h : t.isDirectory location = true) (directory : Location) (name : String)
    (entry : Entry) : (t.add directory name entry).isDirectory location = true := by
  unfold add
  split
  · rw [isDirectory_iff] at h ⊢
    exact h.mono fun p hp => List.mem_append_left _ hp
  · exact h

theorem isDirectory_setFile (h : t.isDirectory location = true) (place : Location)
    (content : ByteArray) : (t.setFile place content).isDirectory location = true :=
  isDirectory_iff.mpr (holdsDirectory_refill (isDirectory_iff.mp h) place content)

theorem isDirectory_removeFile (h : t.isDirectory location = true) (place : Location) :
    (t.removeFile place).isDirectory location = true :=
  isDirectory_iff.mpr (holdsDirectory_survives (isDirectory_iff.mp h) place)

end Directories

/-! ### Walks -/

/-- The way from one location to another below it. -/
def below? : (above location : Location) → Option Location
  | [], location => if location.isEmpty then none else some location
  | _ :: _, [] => none
  | a :: above, l :: location => if a = l then below? above location else none

/-- The order in which a walk visits locations: by their first names that differ, and a
directory before what it holds. Names compare by their characters. -/
def precedes : Location → Location → Bool
  | [], _ => true
  | _ :: _, [] => false
  | a :: as, b :: bs => a < b || (a == b && precedes as bs)

/-- The ways from a directory to the regular files at any depth below it, in the order of a
walk. Links are not regular files, and a walk does not follow them. -/
def filesBelow (t : Tree) (directory : Location) : List Location :=
  (t.entries.filterMap fun p =>
    match p.2 with
    | .file _ => below? directory p.1
    | _ => none).mergeSort precedes

end Tree

end UseCases.Files
