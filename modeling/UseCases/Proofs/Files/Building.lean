/-
What is built on the way to files.

Where no link stands, work in a world makes nothing but the files that it writes and directories on
the way to them.  So it is seen by the paths that lead to these places or past them, and by no
others: a path whose place is beside them is read as before, and fails as it failed before.
-/
import UseCases.Proofs.Files.Linkless
import UseCases.Proofs.Files.Session

namespace UseCases.Files

variable {w v x : World} {p : Path} {cwd place location : Location}
  {touched more : Location → Prop} {α : Type}

/-- Neither of two locations is the other one or lies below it. -/
def Beside (a b : Location) : Prop :=
  ¬a <+: b ∧ ¬b <+: a

instance (a b : Location) : Decidable (Beside a b) :=
  inferInstanceAs (Decidable (_ ∧ _))

theorem Beside.symm {a b : Location} (h : Beside a b) : Beside b a :=
  ⟨h.2, h.1⟩

theorem Beside.ne {a b : Location} (h : Beside a b) : a ≠ b :=
  fun he => h.1 (he ▸ List.prefix_refl a)

namespace World

/-- The second world is the first one after some work that wrote files at `touched` places only, and
made nothing that is not on the way to them. -/
structure Builds (touched : Location → Prop) (w v : World) : Prop extends
    World.Changes touched w v where
  onTheWay : ∀ location, w.tree.find? location = none → v.tree.find? location ≠ none →
    ∃ place, touched place ∧ location <+: place

namespace Builds

theorem refl (w : World) : w.Builds touched w :=
  ⟨Changes.refl w, fun _ hnone hsome => absurd hnone hsome⟩

theorem trans (h : w.Builds touched v) (h' : v.Builds touched x) : w.Builds touched x where
  toChanges := h.toChanges.trans h'.toChanges
  onTheWay location hnone hsome := by
    by_cases hold : v.tree.find? location = none
    · exact h'.onTheWay location hold hsome
    · exact h.onTheWay location hnone hold

theorem mono (h : w.Builds touched v) (hmore : ∀ location, touched location → more location) :
    w.Builds more v where
  toChanges := h.toChanges.mono hmore
  onTheWay location hnone hsome := by
    obtain ⟨place, hplace, hway⟩ := h.onTheWay location hnone hsome
    exact ⟨place, hmore place hplace, hway⟩

theorem linkless (h : w.Builds touched v) (hlinkless : w.tree.Linkless) : v.tree.Linkless :=
  hlinkless.extends h.grown

end Builds

theorem Still.builds (h : w.Still v) : w.Builds touched v where
  toChanges := h.changes
  onTheWay location hnone hsome := by
    rw [h.tree] at hsome
    exact absurd hnone hsome

/-! ### What is read after the work -/

section Untouched

variable (hlinkless : w.tree.Linkless) (hup : ".." ∉ p.steps)
include hlinkless hup

/-- What a path leads to in the world after the work, it led to before if something stood there. -/
theorem Changes.target_back (h : w.Changes touched v) (hthere : w.tree.find? location ≠ none)
    (hfound : v.target p = .found location) : w.target p = .found location := by
  rw [World.target, h.cwd] at hfound
  exact lookup_shrinks hlinkless h.grown (by decide) hup hthere hfound

theorem Changes.place_of_target (h : w.Changes touched v) (hfound : v.target p = .found location) :
    location = p.place w.cwd := by
  rw [World.target, h.cwd] at hfound
  exact place_of_found (hlinkless.extends h.grown) hup (by decide) hfound

/-- **A file that was not touched is read as before**, and where there was none there is none. -/
theorem Changes.read_ok_iff (h : w.Changes touched v) (hfree : ¬touched (p.place w.cwd))
    {content : ByteArray} : v.read p = .ok content ↔ w.read p = .ok content := by
  constructor
  · intro hread
    obtain ⟨location, hfound, hfile⟩ := file_of_read hread
    obtain rfl := h.place_of_target hlinkless hup hfound
    have hold := (h.files _ hfree content).mp hfile
    exact read_eq_ok (h.target_back hlinkless hup (by rw [hold]; simp) hfound) hold
  · intro hread
    obtain ⟨location, hfound, hfile⟩ := file_of_read hread
    obtain rfl := (Changes.refl w : w.Changes touched w).place_of_target hlinkless hup hfound
    exact read_eq_ok (h.lookup (Or.inl rfl) hfound) ((h.files _ hfree content).mpr hfile)

/-- There is something at a path if there was, unless the path leads on the way to what was
touched. -/
theorem Builds.kind?_isSome (h : w.Builds touched v)
    (hway : ∀ place, touched place → ¬p.place w.cwd <+: place) :
    (v.kind? p).isSome = (w.kind? p).isSome := by
  rw [Bool.eq_iff_iff]
  constructor
  · intro hkind
    obtain ⟨location, hfound⟩ := target_of_kind? hkind
    obtain rfl := h.place_of_target hlinkless hup hfound
    have hthere : v.tree.find? (p.place w.cwd) ≠ none := by
      intro hnone
      rw [World.kind?, hfound] at hkind
      simp only [hnone] at hkind
      cases hkind
    have hold : w.tree.find? (p.place w.cwd) ≠ none := by
      intro hnone
      obtain ⟨place, hplace, hon⟩ := h.onTheWay _ hnone hthere
      exact hway place hplace hon
    rw [World.kind?, h.target_back hlinkless hup hold hfound]
    cases hentry : w.tree.find? (p.place w.cwd) with
    | none => exact absurd hentry hold
    | some entry =>
        cases entry with
        | file content => simp only [hentry, Option.isSome_some]
        | directory => simp only [hentry, Option.isSome_some]
        | link target => exact absurd hentry (hlinkless _ target)
  · intro hkind
    obtain ⟨kind, hkind⟩ := Option.isSome_iff_exists.mp hkind
    rw [h.toChanges.kind? hkind]
    rfl

end Untouched

theorem read_of_failure {e : OsError} (h : (w.target p).failure? = some e) :
    w.read p = .error e := by
  rw [World.read]
  cases hfound : w.target p with
  | found location => rw [hfound] at h; cases h
  | absent directory name => rw [hfound] at h; cases h; rfl
  | failed e => rw [hfound] at h; cases h; rfl

theorem failure_of_read {e : OsError} (h : w.read p = .error e) :
    (w.target p).failure?.getD .isADirectory = e := by
  rw [World.read] at h
  cases hfound : w.target p with
  | found location =>
      rw [hfound] at h
      simp only at h
      split at h <;> cases h
      rfl
  | absent directory name => rw [hfound] at h; cases h; rfl
  | failed e => rw [hfound] at h; cases h; rfl

/-- The lookup of a path beside all that was touched fails as before. -/
theorem Builds.target_failure (h : w.Builds touched v) (hlinkless : w.tree.Linkless)
    (hup : ".." ∉ p.steps) (hfits : p.Fits w.tree w.cwd)
    (hbeside : ∀ place, touched place → Beside (p.place w.cwd) place) :
    (v.target p).failure? = (w.target p).failure? := by
  have hway : ∀ location, location <+: p.place w.cwd → w.tree.find? location = none →
      v.tree.find? location = none ∨ v.tree.find? location = some .directory := by
    intro location hlocation hnone
    cases hentry : v.tree.find? location with
    | none => exact Or.inl rfl
    | some entry =>
        have hfree : ¬touched location := fun htouched => (hbeside _ htouched).2 hlocation
        rw [h.toChanges.fresh hfree hnone hentry]
        exact Or.inr rfl
  have hplace : w.tree.find? (p.place w.cwd) = none → v.tree.find? (p.place w.cwd) = none := by
    intro hnone
    by_contra hsome
    obtain ⟨place, htouched, hon⟩ := h.onTheWay _ hnone hsome
    exact (hbeside place htouched).1 hon
  rw [World.target, World.target, h.cwd]
  rcases lookup_linkless w.cwd p with ⟨e, hfailed⟩ | hstretch
  · rw [hfailed, hfailed]
  · obtain ⟨result, result', hresult, hresult', hsame⟩ := stretch_failure hlinkless h.grown
      (up_notMem_pathPieces hup) hfits hway hplace
    rw [hstretch _ _ hlinkless] at hresult
    rw [hstretch _ _ (h.linkless hlinkless)] at hresult'
    rw [Stretch.ended.inj hresult, Stretch.ended.inj hresult', hsame]

/-- **A path beside all that was touched is read as before**, and fails as before. -/
theorem Builds.read (h : w.Builds touched v) (hlinkless : w.tree.Linkless) (hup : ".." ∉ p.steps)
    (hfits : p.Fits w.tree w.cwd)
    (hbeside : ∀ place, touched place → Beside (p.place w.cwd) place) : v.read p = w.read p := by
  have hfree : ¬touched (p.place w.cwd) := fun htouched => (hbeside _ htouched).ne rfl
  cases hread : w.read p with
  | ok content => exact (h.toChanges.read_ok_iff hlinkless hup hfree).mpr hread
  | error e =>
      cases hread' : v.read p with
      | ok content =>
          rw [(h.toChanges.read_ok_iff hlinkless hup hfree).mp hread'] at hread
          cases hread
      | error e' =>
          rw [← failure_of_read hread, ← failure_of_read hread',
            h.target_failure hlinkless hup hfits hbeside]

end World

/-! ### Sessions that build -/

/-- The session makes nothing but the file at the place and directories on the way to it. -/
def BuildsTo (cwd place : Location) (act : Session α) : Prop :=
  ∀ w : World, w.tree.Linkless → w.cwd = cwd → w.Builds (· = place) (act w).2

theorem OnlyLogs.buildsTo {act : Session α} (h : OnlyLogs act) : BuildsTo cwd place act :=
  fun w _ _ => (h w).builds

theorem composes_buildsTo : Composes (BuildsTo cwd place) where
  pure a := (onlyLogs_pure a).buildsTo
  bind h h' := by
    intro w hlinkless hcwd
    have hfirst := h w hlinkless hcwd
    exact hfirst.trans (h' _ _ (hfirst.linkless hlinkless) (hfirst.cwd.trans hcwd))

theorem buildsTo_makeDirectory (hup : ".." ∉ p.steps) (hway : p.place cwd <+: place) :
    BuildsTo cwd place (Host.makeDirectory p) := by
  rintro w hlinkless rfl
  refine ⟨(quiet_makeDirectory p w).of_none, fun location hnone hsome => ?_⟩
  replace hsome : (changeWorld (fun w => w.makeDirectory p) w).2.tree.find? location ≠ none := hsome
  rw [changeWorld, World.makeDirectory] at hsome
  cases hlookup : lookup w.tree w.cwd .entry p with
  | failed e =>
      rw [hlookup] at hsome
      exact absurd hnone hsome
  | found other =>
      rw [hlookup] at hsome
      exact absurd hnone hsome
  | absent directory name =>
      rw [hlookup] at hsome
      by_cases hlocation : location = directory ++ [name]
      · rw [hlocation, place_of_absent hlinkless hup hlookup]
        exact ⟨place, rfl, hway⟩
      · exact absurd ((Tree.find?_add_ne hlocation).trans hnone) hsome

theorem buildsTo_write (hup : ".." ∉ p.steps) (content : ByteArray) :
    BuildsTo cwd (p.place cwd) (Host.write p content) := by
  rintro w hlinkless rfl
  show w.Builds _ (changeWorld (fun w => w.write p content) w).2
  rw [changeWorld, World.write]
  cases hlookup : lookup w.tree w.cwd .output p with
  | failed e => exact World.Builds.refl w
  | absent directory name =>
      have hplace := place_of_absent hlinkless hup hlookup
      have hadd : w.Builds (· = p.place w.cwd) (w.add directory name (.file content)) := by
        refine ⟨⟨rfl, w.tree.extends_add directory name (by simp), ?_⟩, ?_⟩
        · intro location hne other
          rw [World.tree_add, Tree.find?_add_ne (by rw [hplace]; exact hne)]
        · intro location hnone hsome
          by_cases hlocation : location = directory ++ [name]
          · exact ⟨_, rfl, hlocation.trans hplace ▸ List.prefix_refl _⟩
          · exact absurd ((Tree.find?_add_ne hlocation).trans hnone) hsome
      exact hadd
  | found location =>
      obtain rfl := place_of_found hlinkless hup (by decide) hlookup
      have hset : w.Builds (· = p.place w.cwd) (w.setFile (p.place w.cwd) content) := by
        refine ⟨⟨rfl, w.tree.extends_setFile _ content, ?_⟩, ?_⟩
        · intro location hne other
          simp only [World.tree_setFile, Tree.find?_setFile, if_neg hne, Option.map_id']
        · intro location hnone hsome
          exact absurd (by rw [World.tree_setFile, Tree.find?_setFile, hnone]; rfl) hsome
      simp only
      cases w.tree.find? (p.place w.cwd) with
      | none => exact World.Builds.refl w
      | some entry =>
          cases entry with
          | file old => exact hset
          | directory => exact World.Builds.refl w
          | link target => exact World.Builds.refl w

/-- **Making directories makes nothing that is not on the way to the place.** -/
theorem buildsTo_makeDirectories (hup : ".." ∉ p.steps) (hway : p.place cwd <+: place) :
    BuildsTo cwd place (makeDirectories p) := by
  refine holds_makeLineage composes_buildsTo (fun path _ => (onlyLogs_kind? path).buildsTo)
    fun path hpath => ?_
  obtain ⟨hstart, hsteps⟩ := ancestors_steps hpath
  exact buildsTo_makeDirectory (fun hmem => hup (hsteps.subset hmem))
    ((place_prefix_of_steps hstart hsteps).trans hway)

end UseCases.Files
