/-
Which directories are made.

A directory is made only at a place where one of the paths leads that it was asked for with: the path
of the directory, or a beginning of it.  That holds whatever links there are and however the paths go
up, and it is all that can be said in general: a path may begin with a directory that it leaves again,
and that is made nevertheless.  The directories on the way to a path lie above its destination if the
path goes up only from what exists.
-/
import UseCases.Proofs.Files.Ground
import UseCases.Proofs.Files.Parent
import UseCases.Proofs.Files.Session

namespace UseCases.Files

variable {w v x : World} {p q folder : Path} {name : String} {location : Location}
  {paved more : Location → Prop} {way : Path → Prop} {α : Type}

/-! ### Beginnings of paths -/

/-- The path starts where the other one starts, with the first of its steps. -/
structure Path.Begins (q p : Path) : Prop where
  start : q.isAbsolute = p.isAbsolute
  steps : q.steps <+: p.steps

namespace Path.Begins

theorem trans {a b c : Path} (h : a.Begins b) (h' : b.Begins c) : a.Begins c :=
  ⟨h.start.trans h'.start, h.steps.trans h'.steps⟩

theorem of_mem_ancestors (h : q ∈ p.ancestors) : q.Begins p :=
  let ⟨hstart, hsteps⟩ := ancestors_steps h
  ⟨hstart, hsteps⟩

/-- A name joined to a path has that path as its parent, as far as steps go. -/
theorem of_parent?_join (hplain : IsPlain name) (hslash : '/' ∉ name.toList)
    (h : (folder.join name).parent? = some q) : q.Begins folder := by
  obtain ⟨hstart, -⟩ := parent?_steps h
  have hsteps : q.steps = folder.steps := by
    rw [steps_of_parent? h, steps_join hplain hslash, List.dropLast_concat]
  exact ⟨hstart.trans (isAbsolute_join hslash), hsteps ▸ List.prefix_refl _⟩

end Path.Begins

/-! ### New directories -/

namespace World

/-- The second world is the first one after some work that made directories at `paved` places
only. -/
structure Paves (paved : Location → Prop) (w v : World) : Prop extends
    World.Changes (fun _ => True) w v where
  directories : ∀ location, w.tree.find? location = none →
    v.tree.find? location = some .directory → paved location

namespace Paves

theorem refl (w : World) : w.Paves paved w :=
  ⟨Changes.refl w, fun location hnone hsome => by
    rw [hnone] at hsome
    cases hsome⟩

theorem trans (h : w.Paves paved v) (h' : v.Paves paved x) : w.Paves paved x where
  toChanges := h.toChanges.trans h'.toChanges
  directories location hnone hdirectory := by
    cases hbetween : v.tree.find? location with
    | none => exact h'.directories location hbetween hdirectory
    | some entry =>
        have hentry : entry = .directory := by
          rcases h'.grown.keeps hbetween with hkept | ⟨_, _, -, hfile⟩
          · exact Option.some.inj (hkept.symm.trans hdirectory)
          · cases hfile.symm.trans hdirectory
        rw [hentry] at hbetween
        exact h.directories location hnone hbetween

theorem mono (h : w.Paves paved v)
    (hmore : ∀ location, w.tree.find? location = none → paved location → more location) :
    w.Paves more v where
  toChanges := h.toChanges
  directories location hnone hdirectory :=
    hmore location hnone (h.directories location hnone hdirectory)

end Paves

theorem Still.paves (h : w.Still v) : w.Paves paved v where
  toChanges := h.changes
  directories location hnone hdirectory := by
    rw [h.tree, hnone] at hdirectory
    cases hdirectory

/-- One of the paths leads to the location, once what is missing on its way is made. -/
def LiesOn (w : World) (way : Path → Prop) (location : Location) : Prop :=
  ∃ q, way q ∧ destination w.tree w.cwd q = some location

theorem LiesOn.mono {other : Path → Prop} (h : w.LiesOn way location)
    (hmore : ∀ q, way q → other q) : w.LiesOn other location := by
  obtain ⟨q, hq, hlocation⟩ := h
  exact ⟨q, hmore q hq, hlocation⟩

/-- Paths lead where they led, however the tree grows. -/
theorem Changes.liesOn_iff {touched : Location → Prop} (h : w.Changes touched v) :
    v.LiesOn way location ↔ w.LiesOn way location := by
  simp only [LiesOn, h.cwd, destination_extends h.grown]

/-- Work along some paths may go on along them. -/
theorem Paves.along (h : w.Paves (w.LiesOn way) v) (h' : v.Paves (v.LiesOn way) x) :
    w.Paves (w.LiesOn way) x :=
  h.trans (h'.mono fun _ _ => h.toChanges.liesOn_iff.mp)

/-- **Above the destination of a grounded path lies whatever is missing on its way.** -/
theorem LiesOn.prefix_of_grounded (h : w.LiesOn (Path.Begins · folder) location)
    (hgrounded : Grounded w.tree w.cwd folder) (hmissing : w.tree.find? location = none) :
    ∃ place, destination w.tree w.cwd folder = some place ∧ location <+: place := by
  obtain ⟨q, hq, hlocation⟩ := h
  obtain ⟨names, hplace⟩ :=
    hgrounded.destination_below hq.start hq.steps hlocation hmissing
  exact ⟨location ++ names, hplace, List.prefix_append location names⟩

end World

/-! ### Sessions that make directories -/

/-- The session makes directories only where the paths lead. -/
def Paving (way : Path → Prop) (act : Session α) : Prop :=
  ∀ w : World, w.Paves (w.LiesOn way) (act w).2

theorem Paving.paves {act : Session α} (h : Paving way act) {a : α} (hact : act w = (a, v)) :
    w.Paves (w.LiesOn way) v :=
  session_leaves hact (h w)

theorem Paving.mono {act : Session α} {other : Path → Prop} (h : Paving way act)
    (hmore : ∀ q, way q → other q) : Paving other act :=
  fun w => (h w).mono fun _ _ hlies => hlies.mono hmore

theorem OnlyLogs.paving {act : Session α} (h : OnlyLogs act) : Paving way act :=
  fun w => (h w).paves

theorem composes_paving : Composes (Paving way) where
  pure a := (onlyLogs_pure a).paving
  bind h h' w := (h w).along (h' _ _)

theorem paving_makeDirectory (h : way p) : Paving way (Host.makeDirectory p) := by
  intro w
  refine ⟨(quiet_makeDirectory p w).of_none, fun location hnone hdirectory => ?_⟩
  replace hdirectory : (changeWorld (fun w => w.makeDirectory p) w).2.tree.find? location =
    some .directory := hdirectory
  rw [changeWorld, World.makeDirectory] at hdirectory
  cases hlookup : lookup w.tree w.cwd .entry p with
  | failed e =>
      rw [hlookup] at hdirectory
      cases hnone.symm.trans hdirectory
  | found other =>
      rw [hlookup] at hdirectory
      cases hnone.symm.trans hdirectory
  | absent directory name =>
      rw [hlookup] at hdirectory
      rcases Tree.find?_add_cases hdirectory with hold | ⟨rfl, -⟩
      · cases hnone.symm.trans hold
      · exact ⟨p, h, destination_of_absent hlookup⟩

/-- Writing a file makes no directory. -/
theorem paving_write (p : Path) (content : ByteArray) : Paving way (Host.write p content) := by
  intro w
  show w.Paves _ (changeWorld (fun w => w.write p content) w).2
  rw [changeWorld, World.write]
  cases hlookup : lookup w.tree w.cwd .output p with
  | failed e => exact World.Paves.refl w
  | absent directory name =>
      refine ⟨⟨rfl, w.tree.extends_add directory name (by simp), fun _ hfalse => ?_⟩, ?_⟩
      · exact absurd True.intro hfalse
      · intro location hnone hdirectory
        rcases Tree.find?_add_cases hdirectory with hold | ⟨-, hfile⟩
        · cases hnone.symm.trans hold
        · cases hfile
  | found location =>
      have hset : w.Paves (w.LiesOn way) (w.setFile location content) := by
        refine ⟨⟨rfl, w.tree.extends_setFile location content, fun _ hfalse => ?_⟩, ?_⟩
        · exact absurd True.intro hfalse
        · intro place hnone hdirectory
          rw [World.tree_setFile, Tree.find?_setFile, hnone] at hdirectory
          cases hdirectory
      simp only
      cases w.tree.find? location with
      | none => exact World.Paves.refl w
      | some entry =>
          cases entry with
          | file old => exact hset
          | directory => exact World.Paves.refl w
          | link target => exact World.Paves.refl w

/-- **Directories are made where beginnings of the path lead, and nowhere else.** -/
theorem paving_makeDirectories (p : Path) : Paving (Path.Begins · p) (makeDirectories p) :=
  holds_makeLineage composes_paving (fun path _ => (onlyLogs_kind? path).paving)
    fun _ hpath => paving_makeDirectory (Path.Begins.of_mem_ancestors hpath)

end UseCases.Files
