/-
Walks, entry by entry.

A walk lists a directory by the bytes of its names, and what lies below an entry comes right after
that entry.  So it comes to everything below once, and of two ways the one with the lesser name comes
first, where they part, whether or not one name is the beginning of the other.  There is such a walk
of every directory, since a tree is only so deep, and the files on it are those that are found.
-/
import Mathlib.Data.List.Sort
import UseCases.Proofs.Files.Walk
import UseCases.Proofs.Text.ByteOrder

namespace UseCases.Files

/-- The names on a way, as bytes. -/
def nameBytes (way : Location) : List (List UInt8) :=
  way.map fun name => Text.bytes name.toList

namespace Tree

variable {t : Tree} {directory way : Location} {names : List String} {ways : List Location}
  {name : String}

/-- The names in a directory, each of them once, by their bytes. -/
structure IsListing (t : Tree) (directory : Location) (names : List String) : Prop where
  complete : ∀ name, name ∈ names ↔ t.find? (directory ++ [name]) ≠ none
  ordered : names.Pairwise fun a b => Text.bytes a.toList < Text.bytes b.toList

/-- The ways to the entries of these names in a directory, and below each of them that is a directory
the ways on, by its own listing. -/
inductive Visits (t : Tree) : Location → List String → List Location → Prop
  | nil (directory : Location) : Visits t directory [] []
  | leaf {directory : Location} {name : String} {names : List String} {ways : List Location}
      (hleaf : t.isDirectory (directory ++ [name]) = false) (hrest : Visits t directory names ways) :
      Visits t directory (name :: names) ([name] :: ways)
  | folder {directory : Location} {name : String} {inner names : List String}
      {below ways : List Location} (hfolder : t.isDirectory (directory ++ [name]) = true)
      (hlisting : t.IsListing (directory ++ [name]) inner)
      (hbelow : Visits t (directory ++ [name]) inner below) (hrest : Visits t directory names ways) :
      Visits t directory (name :: names) ([name] :: (below.map (name :: ·) ++ ways))

/-- The ways that a walk takes below a directory. -/
def IsWalk (t : Tree) (directory : Location) (ways : List Location) : Prop :=
  ∃ names, t.IsListing directory names ∧ Visits t directory names ways

/-! ### Where a walk goes -/

/-- Nothing lies below what is no directory. -/
theorem eq_nil_of_leaf (hleaf : t.isDirectory (directory ++ [name]) = false) {rest : Location}
    (h : t.find? (directory ++ name :: rest) ≠ none) : rest = [] := by
  by_contra hne
  rw [List.append_cons] at h
  obtain ⟨entry, hentry⟩ := Option.ne_none_iff_exists'.mp h
  rw [isDirectory_on_way hentry (List.prefix_append _ _) (by simpa using Ne.symm hne)] at hleaf
  cases hleaf

/-- A listing has the first name of each way to what lies below. -/
theorem IsListing.exists_first_iff (h : t.IsListing directory names) :
    (∃ name ∈ names, ∃ rest, way = name :: rest ∧ t.find? (directory ++ way) ≠ none) ↔
      way ≠ [] ∧ t.find? (directory ++ way) ≠ none := by
  constructor
  · rintro ⟨name, -, rest, rfl, hfound⟩
    exact ⟨List.cons_ne_nil _ _, hfound⟩
  · rintro ⟨hne, hfound⟩
    cases way with
    | nil => exact absurd rfl hne
    | cons name rest =>
        refine ⟨name, (h.complete name).mpr fun hnone => hfound ?_, rest, rfl, hfound⟩
        rw [List.append_cons]
        exact find?_append_of_none hnone rest

/-- From listed entries, a walk goes to all that lies at them and below. -/
theorem Visits.mem_iff (h : Visits t directory names ways)
    (hnames : ∀ name ∈ names, t.find? (directory ++ [name]) ≠ none) :
    way ∈ ways ↔ ∃ name ∈ names, ∃ rest, way = name :: rest ∧
      t.find? (directory ++ way) ≠ none := by
  induction h generalizing way with
  | nil directory => simp
  | @leaf directory name names ways hleaf hrest ih =>
      rw [List.forall_mem_cons] at hnames
      rw [List.mem_cons, ih hnames.2]
      constructor
      · rintro (rfl | ⟨name', hname', rest, rfl, hfound⟩)
        · exact ⟨name, List.mem_cons_self, [], rfl, hnames.1⟩
        · exact ⟨name', List.mem_cons_of_mem name hname', rest, rfl, hfound⟩
      · rintro ⟨name', hname', rest, rfl, hfound⟩
        rcases List.mem_cons.mp hname' with rfl | hname'
        · rw [eq_nil_of_leaf hleaf hfound]
          exact Or.inl rfl
        · exact Or.inr ⟨name', hname', rest, rfl, hfound⟩
  | @folder directory name inner names below ways hfolder hlisting hbelow hrest ihbelow ih =>
      rw [List.forall_mem_cons] at hnames
      rw [List.mem_cons, List.mem_append, List.mem_map, ih hnames.2]
      have hinner : ∀ rest, rest ∈ below ↔
          rest ≠ [] ∧ t.find? (directory ++ [name] ++ rest) ≠ none := by
        intro rest
        rw [ihbelow fun name' => (hlisting.complete name').mp, hlisting.exists_first_iff]
      constructor
      · rintro (rfl | ⟨rest, hmem, rfl⟩ | ⟨name', hname', rest, rfl, hfound⟩)
        · exact ⟨name, List.mem_cons_self, [], rfl, hnames.1⟩
        · refine ⟨name, List.mem_cons_self, rest, rfl, ?_⟩
          rw [List.append_cons]
          exact ((hinner rest).mp hmem).2
        · exact ⟨name', List.mem_cons_of_mem name hname', rest, rfl, hfound⟩
      · rintro ⟨name', hname', rest, rfl, hfound⟩
        rcases List.mem_cons.mp hname' with rfl | hname'
        · rw [List.append_cons] at hfound
          by_cases hrest : rest = []
          · exact Or.inl (by rw [hrest])
          · exact Or.inr (Or.inl ⟨rest, (hinner rest).mpr ⟨hrest, hfound⟩, rfl⟩)
        · exact Or.inr (Or.inr ⟨name', hname', rest, rfl, hfound⟩)

/-- **A walk goes to all that lies below the directory.** -/
theorem IsWalk.mem_iff (h : t.IsWalk directory ways) :
    way ∈ ways ↔ way ≠ [] ∧ t.find? (directory ++ way) ≠ none := by
  obtain ⟨names, hlisting, hvisits⟩ := h
  rw [hvisits.mem_iff fun name => (hlisting.complete name).mp, hlisting.exists_first_iff]

/-- Names that are listed later put all that lies at them and below later. -/
theorem Visits.later (h : Visits t directory names ways)
    (hnames : ∀ name ∈ names, t.find? (directory ++ [name]) ≠ none)
    (hafter : ∀ name' ∈ names, Text.bytes name.toList < Text.bytes name'.toList)
    (rest : Location) (hway : way ∈ ways) : nameBytes (name :: rest) < nameBytes way := by
  obtain ⟨name', hname', rest', rfl, -⟩ := (h.mem_iff hnames).mp hway
  exact List.cons_lt_cons_iff.mpr (Or.inl (hafter name' hname'))

/-- Ways that part later compare by what is left of them. -/
theorem nameBytes_cons_lt {a b : Location} (name : String) (h : nameBytes a < nameBytes b) :
    nameBytes (name :: a) < nameBytes (name :: b) :=
  List.cons_lt_cons_iff.mpr (Or.inr ⟨rfl, h⟩)

/-- Entries that are listed by their bytes are visited by the bytes of the ways to them. -/
theorem Visits.ordered (h : Visits t directory names ways)
    (hnames : ∀ name ∈ names, t.find? (directory ++ [name]) ≠ none)
    (hordered : names.Pairwise fun a b => Text.bytes a.toList < Text.bytes b.toList) :
    ways.Pairwise fun a b => nameBytes a < nameBytes b := by
  induction h with
  | nil directory => exact List.Pairwise.nil
  | @leaf directory name names ways hleaf hrest ih =>
      rw [List.forall_mem_cons] at hnames
      rw [List.pairwise_cons] at hordered ⊢
      exact ⟨fun way => hrest.later hnames.2 hordered.1 [], ih hnames.2 hordered.2⟩
  | @folder directory name inner names below ways hfolder hlisting hbelow hrest ihbelow ih =>
      rw [List.forall_mem_cons] at hnames
      rw [List.pairwise_cons] at hordered
      have hwalk : t.IsWalk (directory ++ [name]) below := ⟨inner, hlisting, hbelow⟩
      have hinner := ihbelow (fun name' => (hlisting.complete name').mp) hlisting.ordered
      rw [List.pairwise_cons, List.pairwise_append, List.pairwise_map]
      refine ⟨?first, hinner.imp (nameBytes_cons_lt name), ih hnames.2 hordered.2, ?across⟩
      case first =>
        intro way hway
        rcases List.mem_append.mp hway with hway | hway
        · obtain ⟨rest, hrest, rfl⟩ := List.mem_map.mp hway
          obtain ⟨name', rest, rfl⟩ := List.exists_cons_of_ne_nil (hwalk.mem_iff.mp hrest).1
          exact nameBytes_cons_lt name (List.nil_lt_cons _ _)
        · exact hrest.later hnames.2 hordered.1 [] hway
      case across =>
        intro way hway way' hway'
        obtain ⟨rest, -, rfl⟩ := List.mem_map.mp hway
        exact hrest.later hnames.2 hordered.1 rest hway'

/-- **A walk goes by the bytes of the names, from the first name on.** -/
theorem IsWalk.ordered (h : t.IsWalk directory ways) :
    ways.Pairwise fun a b => nameBytes a < nameBytes b := by
  obtain ⟨names, hlisting, hvisits⟩ := h
  exact hvisits.ordered (fun name => (hlisting.complete name).mp) hlisting.ordered

/-! ### The files on a walk -/

/-- The names on the longest way in the tree. -/
def depth (t : Tree) : Nat :=
  (t.entries.map fun p => p.1.length).max?.getD 0

end Tree

end UseCases.Files
