/-
What is found of a project, and what is found of one that only gained files.

Each path stands for its declaration files, and the first one that leads to nothing is missed.  The
package name and the declaration files are found again in a world in which nothing was replaced:
what was read is read the same, and a walk finds the files it found before, in their order.  It finds
new files as well, so it matters that none of them is named like a declaration file.
-/
import UseCases.Proofs.Files.Session
import UseCases.Proofs.Files.Walk
import UseCases.Project.Discovery

namespace UseCases.Project

open Files

variable {w v : World} {path : Path} {args : List Path} {place : Location}

/-! ### Declaration files -/

/-- A file at the place is found as a declaration file below one of the paths. -/
def isCollected (w : World) (args : List Path) (place : Location) : Bool :=
  args.any fun arg =>
    match w.target arg with
    | .found directory =>
      (Tree.below? directory place).any fun rest => isDeclaration (rest.foldl Path.join arg)
    | _ => false

theorem isCollected_below {directory rest : Location} (hpath : path ∈ args)
    (hfound : w.target path = .found directory) (hrest : rest ≠ [])
    (hdeclaration : isDeclaration (rest.foldl Path.join path) = true) :
    isCollected w args (directory ++ rest) = true := by
  rw [isCollected, List.any_eq_true]
  refine ⟨path, hpath, ?_⟩
  simp only [hfound]
  rw [Tree.below?_eq_some.mpr ⟨rfl, hrest⟩, Option.any_some, hdeclaration]

/-- A file that is collected is named like a declaration file. -/
theorem exists_of_isCollected (h : isCollected w args place = true) :
    ∃ arg directory rest, w.target arg = .found directory ∧ place = directory ++ rest ∧
      rest ≠ [] ∧ isDeclaration (rest.foldl Path.join arg) = true := by
  rw [isCollected, List.any_eq_true] at h
  obtain ⟨arg, -, h⟩ := h
  split at h
  · rename_i directory hfound
    obtain ⟨rest, hbelow, hdeclaration⟩ := (Option.any_eq_true _ _).mp h
    obtain ⟨hplace, hrest⟩ := Tree.below?_eq_some.mp hbelow
    exact ⟨arg, directory, rest, hfound, hplace, hrest, hdeclaration⟩
  · cases h

/-- A name that does not end like that of a declaration file is none. -/
theorem isDeclaration_join {folder : Path} {name : String} (hplain : IsPlain name)
    (hslash : '/' ∉ name.toList) :
    isDeclaration (folder.join name) = Text.endsWith declarationSuffix.toList name.toList := by
  rw [isDeclaration, fileName?_join hplain hslash]

/-- The declaration files below a directory. -/
theorem declarationsAt_directory {directory : Location} (hkind : w.kind? path = some .directory)
    (hfound : w.target path = .found directory) :
    ((declarationsAt path : Session (Except Failure (List Path))) w).1 =
        .ok (((w.tree.filesBelow directory).map fun rest => rest.foldl Path.join path).filter
          isDeclaration) ∧
      w.Still ((declarationsAt path : Session (Except Failure (List Path))) w).2 := by
  have hhost : (Host.kind? path : Session (Option Kind)) w = (some .directory, w) :=
    congrArg (·, w) hkind
  have hwalk : (Host.walk path : Session (Except OsError (List Path))) w =
      (.ok ((w.tree.filesBelow directory).map fun rest => rest.foldl Path.join path), w) := by
    show (w.walk path, w) = _
    rw [World.walk, hfound]
  rw [declarationsAt, session_bind, hhost]
  simp only
  rw [session_bind, hwalk]
  simp only
  split
  · exact ⟨rfl, ⟨rfl, rfl⟩⟩
  · exact ⟨rfl, .refl w⟩

theorem onlyLogs_declarationsAt (path : Path) :
    OnlyLogs (declarationsAt path : Session (Except Failure (List Path))) := by
  refine (onlyLogs_kind? path).bind fun kind => ?_
  split
  · exact onlyLogs_pure _
  · exact onlyLogs_pure _
  · refine OnlyLogs.bind (fun w => World.Still.refl w) fun walked => ?_
    split
    · exact onlyLogs_pure _
    · simp only
      split
      · exact (onlyLogs_log _).bind fun _ => onlyLogs_pure _
      · exact onlyLogs_pure _

theorem onlyLogs_collectDeclarations (paths : List Path) :
    OnlyLogs (collectDeclarations paths : Session (Except Failure (List Path))) := by
  induction paths with
  | nil => exact onlyLogs_pure _
  | cons path paths ih =>
      refine (onlyLogs_declarationsAt path).bind fun found => ?_
      split
      · exact onlyLogs_pure _
      · refine ih.bind fun more => ?_
        split <;> exact onlyLogs_pure _

/-- The declaration files that a path stands for in a world. -/
def declarationsBelow (w : World) (path : Path) : List Path :=
  match w.kind? path, w.target path with
  | some .file, _ => [path]
  | some .directory, .found directory =>
    ((w.tree.filesBelow directory).map fun rest => rest.foldl Path.join path).filter isDeclaration
  | _, _ => []

theorem declarationsBelow_still (h : w.Still v) (path : Path) :
    declarationsBelow v path = declarationsBelow w path := by
  rw [declarationsBelow, declarationsBelow, h.kind?, h.target, h.tree]

/-- A path that leads to something stands for its declaration files. -/
theorem declarationsAt_of_kind? (h : w.kind? path ≠ none) :
    ((declarationsAt path : Session (Except Failure (List Path))) w).1 =
      .ok (declarationsBelow w path) := by
  cases hkind : w.kind? path with
  | none => exact absurd hkind h
  | some kind =>
      cases kind with
      | file =>
          have hhost : (Host.kind? path : Session (Option Kind)) w = (some .file, w) :=
            congrArg (·, w) hkind
          rw [declarationsAt, session_bind, hhost, declarationsBelow, hkind]
          rfl
      | directory =>
          obtain ⟨directory, hfound⟩ := World.target_of_kind? (by rw [hkind]; rfl)
          rw [(declarationsAt_directory hkind hfound).1, declarationsBelow, hkind, hfound]

theorem declarationsAt_missing (h : w.kind? path = none) :
    ((declarationsAt path : Session (Except Failure (List Path))) w).1 =
      .error (.missing path) := by
  have hhost : (Host.kind? path : Session (Option Kind)) w = (none, w) := congrArg (·, w) h
  rw [declarationsAt, session_bind, hhost]
  rfl

/-- **Each path stands for its declaration files, if all of them lead to something.** -/
theorem collectDeclarations_eq {paths : List Path} (h : ∀ path ∈ paths, w.kind? path ≠ none) :
    ((collectDeclarations paths : Session (Except Failure (List Path))) w).1 =
      .ok (paths.flatMap (declarationsBelow w)) := by
  induction paths generalizing w with
  | nil => rfl
  | cons path paths ih =>
      have hstill := onlyLogs_declarationsAt path w
      have hmore := ih fun p hp => by
        rw [hstill.kind?]
        exact h p (List.mem_cons_of_mem path hp)
      rw [collectDeclarations, session_bind, declarationsAt_of_kind? (h path List.mem_cons_self)]
      simp only
      rw [session_bind, hmore, funext (declarationsBelow_still hstill)]
      rfl

/-- **The first path that leads to nothing is the one that is missed.** -/
theorem collectDeclarations_missing {before after : List Path}
    (hbefore : ∀ p ∈ before, w.kind? p ≠ none) (h : w.kind? path = none) :
    ((collectDeclarations (before ++ path :: after) : Session (Except Failure (List Path))) w).1 =
      .error (.missing path) := by
  induction before generalizing w with
  | nil =>
      rw [List.nil_append, collectDeclarations, session_bind, declarationsAt_missing h]
      rfl
  | cons first before ih =>
      have hstill := onlyLogs_declarationsAt first w
      have hmore := ih (fun p hp => by
        rw [hstill.kind?]
        exact hbefore p (List.mem_cons_of_mem first hp)) ((hstill.kind? path).trans h)
      rw [List.cons_append, collectDeclarations, session_bind,
        declarationsAt_of_kind? (hbefore first List.mem_cons_self)]
      simp only
      rw [session_bind, hmore]
      rfl

/-- Declaration files are collected only if each path leads to a file or a directory. -/
theorem kind?_of_collectDeclarations {paths found : List Path}
    (h : ((collectDeclarations paths : Session (Except Failure (List Path))) w).1 = .ok found) :
    ∀ path ∈ paths, ∃ kind, w.kind? path = some kind := by
  induction paths generalizing w found with
  | nil => simp
  | cons path paths ih =>
      intro p hp
      rw [collectDeclarations, session_bind] at h
      cases hkind : w.kind? path with
      | none =>
          have hhost : (Host.kind? path : Session (Option Kind)) w = (none, w) :=
            congrArg (·, w) hkind
          rw [declarationsAt, session_bind, hhost] at h
          cases h
      | some kind =>
          rcases List.mem_cons.mp hp with rfl | hp
          · exact ⟨kind, hkind⟩
          · have hstill := onlyLogs_declarationsAt path w
            cases hfirst : ((declarationsAt path : Session (Except Failure (List Path))) w).1 with
            | error failure =>
                rw [hfirst] at h
                cases h
            | ok first =>
                simp only [hfirst] at h
                rw [session_bind] at h
                cases hmore : ((collectDeclarations paths : Session (Except Failure (List Path)))
                    ((declarationsAt path : Session (Except Failure (List Path))) w).2).1 with
                | error failure =>
                    rw [hmore] at h
                    cases h
                | ok more =>
                    obtain ⟨kind, hthere⟩ := ih hmore p hp
                    exact ⟨kind, (hstill.kind? p).symm.trans hthere⟩

/-! ### Names are only asked for -/

theorem onlyLogs_projectName (given : Option String) (pubspec : Path) (fallback : String) :
    OnlyLogs (projectName given pubspec fallback : Session String) := by
  have hpubspec : OnlyLogs (pubspecName pubspec : Session (Option String)) := by
    refine (onlyLogs_readText pubspec).bind fun source? => ?_
    split
    · exact (onlyLogs_log _).bind fun _ => onlyLogs_pure _
    · split
      · exact onlyLogs_pure _
      · exact (onlyLogs_log _).bind fun _ => onlyLogs_pure _
  unfold projectName
  split
  · exact onlyLogs_pure _
  · refine hpubspec.bind fun name? => ?_
    split
    · exact onlyLogs_pure _
    · exact (onlyLogs_log _).bind fun _ => onlyLogs_pure _

/-! ### Found again in a world that gained files -/

variable (hchanges : w.Changes (fun location => w.tree.find? location = none) v)
include hchanges

/-- A path stands for the same declaration files, if no file is new among them. -/
theorem alike_declarationsAt {kind : Kind} (hkind : w.kind? path = some kind)
    (hnew : ∀ place content, isCollected w args place = true →
      v.tree.find? place = some (.file content) → w.tree.find? place ≠ none)
    (hpath : path ∈ args) : Alike w v (declarationsAt path) := by
  have hkind' := hchanges.kind? hkind
  cases kind with
  | file =>
      refine (alike_kind? (hkind'.trans hkind.symm)).bind ?_
      rw [show ((Host.kind? path : Session (Option Kind)) w).1 = some .file from hkind]
      exact alike_pure _
  | directory =>
      have htarget : ∃ directory, w.target path = .found directory :=
        World.target_of_kind? (by rw [hkind]; rfl)
      obtain ⟨directory, hfound⟩ := htarget
      have hfound' : v.target path = .found directory := hchanges.lookup (Or.inl rfl) hfound
      have hsame : (w.tree.filesBelow directory).filter
            (isDeclaration ∘ fun rest => rest.foldl Path.join path) =
          (v.tree.filesBelow directory).filter
            (isDeclaration ∘ fun rest => rest.foldl Path.join path) := by
        refine Tree.filter_filesBelow fun rest hdeclaration => ?_
        rw [Tree.mem_filesBelow, Tree.mem_filesBelow]
        refine and_congr_right fun hrest => ⟨?_, ?_⟩
        · rintro ⟨content, hfile⟩
          exact ⟨content, hchanges.keeps (fun _ hfree => hfree) hfile⟩
        · rintro ⟨content, hfile⟩
          have hold := hnew _ content
            (isCollected_below hpath hfound hrest hdeclaration) hfile
          exact ⟨content, (hchanges.files _ hold content).mp hfile⟩
      intro w' v' hw hv
      obtain ⟨hvalue, hstill⟩ := declarationsAt_directory ((hw.kind? path).trans hkind)
        ((hw.target path).trans hfound)
      obtain ⟨hvalue', hstill'⟩ := declarationsAt_directory ((hv.kind? path).trans hkind')
        ((hv.target path).trans hfound')
      refine ⟨?_, hw.trans hstill, hv.trans hstill'⟩
      rw [hvalue, hvalue', List.filter_map, List.filter_map, hw.tree, hv.tree, hsame]

/-- **The same declaration files are collected in the same order**, if no file is new among them. -/
theorem alike_collectDeclarations {paths : List Path}
    (hkinds : ∀ path ∈ paths, ∃ kind, w.kind? path = some kind)
    (hnew : ∀ place content, isCollected w args place = true →
      v.tree.find? place = some (.file content) → w.tree.find? place ≠ none)
    (hpaths : ∀ path ∈ paths, path ∈ args) : Alike w v (collectDeclarations paths) := by
  induction paths with
  | nil => exact alike_pure _
  | cons path paths ih =>
      obtain ⟨kind, hkind⟩ := hkinds path List.mem_cons_self
      refine (alike_declarationsAt hchanges hkind hnew (hpaths path List.mem_cons_self)).bind ?_
      split
      · exact alike_pure _
      · refine (ih (fun p hp => hkinds p (List.mem_cons_of_mem path hp)) fun p hp =>
          hpaths p (List.mem_cons_of_mem path hp)).bind ?_
        split <;> exact alike_pure _

/-! ### Names -/

theorem alike_pubspecName (hkind : v.kind? path = w.kind? path) : Alike w v (pubspecName path) := by
  cases hthere : w.kind? path with
  | some kind =>
      refine (alike_readText (hchanges.read hthere)).bind ?_
      split
      · exact (alike_log _).bind (alike_pure _)
      · split
        · exact alike_pure _
        · exact (alike_log _).bind (alike_pure _)
  | none =>
      have hnone : ∀ x : World, x.kind? path = none →
          ((pubspecName path : Session (Option String)) x).1 = none ∧
            x.Still ((pubspecName path : Session (Option String)) x).2 := by
        intro x hx
        obtain ⟨e, hread⟩ := World.read_of_none hx
        have hhost : (Host.read path : Session (Except OsError ByteArray)) x = (.error e, x) :=
          congrArg (·, x) hread
        rw [pubspecName, session_bind, readText, session_bind, hhost]
        exact ⟨rfl, ⟨rfl, rfl⟩⟩
      intro w' v' hw hv
      obtain ⟨hvalue, hstill⟩ := hnone w' ((hw.kind? path).trans hthere)
      obtain ⟨hvalue', hstill'⟩ := hnone v' ((hv.kind? path).trans (hkind.trans hthere))
      exact ⟨hvalue'.trans hvalue.symm, hw.trans hstill, hv.trans hstill'⟩

/-- The package has the same name, if its pubspec is no new one. -/
theorem alike_projectName (given : Option String) (fallback : String)
    (hkind : v.kind? path = w.kind? path) : Alike w v (projectName given path fallback) := by
  unfold projectName
  split
  · exact alike_pure _
  · refine (alike_pubspecName hchanges hkind).bind ?_
    split
    · exact alike_pure _
    · exact (alike_log _).bind (alike_pure _)

end UseCases.Project
