/-
What sessions may change.

A session that only logs leaves the tree and the working directory as they are.  A quiet session may
make directories, but writes no file.  And no session of the program reads the log, so worlds that
differ in their logs alone are the same to it.
-/
import UseCases.Proofs.Files.World

namespace UseCases.Files

variable {w v x : World} {p : Path} {α β : Type}

theorem session_bind (act : Session α) (next : α → Session β) (w : World) :
    (act >>= next) w = next (act w).1 (act w).2 := rfl

/-- What comes first is known, and the rest goes on from there. -/
theorem session_bind_of {act : Session α} {next : α → Session β} {a : α} (h : act w = (a, v)) :
    (act >>= next) w = next a v := by
  rw [session_bind, h]

/-- A session that goes on after another one runs on what that one made of the world. -/
theorem session_bind_cases {act : Session α} {next : α → Session β} {b : β}
    (h : (act >>= next) w = (b, x)) : ∃ a v, act w = (a, v) ∧ next a v = (b, x) :=
  ⟨(act w).1, (act w).2, rfl, h⟩

/-- What holds of the world that a session leaves holds of the one that it is known to leave. -/
theorem session_leaves {holds : World → Prop} {act : Session α} {a : α} (hact : act w = (a, v))
    (h : holds (act w).2) : holds v := by
  rw [hact] at h
  exact h

theorem changeWorld_ok {act : World → Except OsError World}
    (h : changeWorld act w = (.ok (), v)) : act w = .ok v := by
  unfold changeWorld at h
  split at h
  · rename_i after hafter
    rw [hafter, (Prod.mk.inj h).2]
  · cases h

/-! ### Properties of sessions

A session of the program is put together from the operations of its host.  So a property that is kept
when sessions are put together holds of such a session as soon as it holds of the operations that
the session asks for.
-/

/-- What is put together from sessions with the property has it, too. -/
structure Composes (holds : ∀ {α : Type}, Session α → Prop) : Prop where
  pure : ∀ {α : Type} (a : α), holds (pure a)
  bind : ∀ {α β : Type} {act : Session α} {next : α → Session β},
    holds act → (∀ a, holds (next a)) → holds (act >>= next)

section Composes

variable {holds : ∀ {α : Type}, Session α → Prop} (h : Composes holds)
include h

theorem holds_pathExists (hkind : holds (Host.kind? p)) : holds (pathExists p) :=
  h.bind hkind fun _ => h.pure _

theorem holds_readText (hread : holds (Host.read p)) : holds (readText p) := by
  refine h.bind hread fun result => ?_
  split
  · exact h.pure _
  · split <;> exact h.pure _

/-- Asking for a directory, and failing if there is none. -/
theorem holds_isDirectory_else (hkind : holds (Host.kind? p)) (e : OsError) :
    holds (do if ← isDirectory p then return .ok () else return .error e :
      Session (Except OsError Unit)) := by
  refine h.bind (h.bind hkind fun _ => h.pure _) fun isThere => ?_
  split <;> exact h.pure _

theorem holds_ensureDirectory (hkind : holds (Host.kind? p)) (hmake : holds (Host.makeDirectory p)) :
    holds (ensureDirectory p) := by
  refine h.bind hmake fun result => ?_
  split
  · exact h.pure _
  · exact holds_isDirectory_else h hkind _

theorem holds_makeLineage {paths : List Path} (hkind : ∀ path ∈ paths, holds (Host.kind? path))
    (hmake : ∀ path ∈ paths, holds (Host.makeDirectory path)) : holds (makeLineage paths) := by
  induction paths with
  | nil => exact h.pure _
  | cons path ancestors ih =>
      rw [List.forall_mem_cons] at hkind hmake
      refine h.bind hmake.1 fun result => ?_
      split
      · exact h.pure _
      · refine h.bind (ih hkind.2 hmake.2) fun result => ?_
        split
        · exact holds_ensureDirectory h hkind.1 hmake.1
        · exact h.pure _
      · exact holds_isDirectory_else h hkind.1 _

end Composes

/-! ### Sessions that only log -/

/-- Nothing changed but the log. -/
structure World.Still (w v : World) : Prop where
  tree : v.tree = w.tree
  cwd : v.cwd = w.cwd

namespace World.Still

theorem refl (w : World) : w.Still w :=
  ⟨rfl, rfl⟩

theorem trans (h : w.Still v) (h' : v.Still x) : w.Still x :=
  ⟨h'.tree.trans h.tree, h'.cwd.trans h.cwd⟩

theorem changes {touched : Location → Prop} (h : w.Still v) : w.Changes touched v where
  cwd := h.cwd
  grown := by
    rw [h.tree]
    exact Tree.Extends.refl w.tree
  files location _ content := by rw [h.tree]

theorem target (h : w.Still v) (p : Path) : v.target p = w.target p := by
  rw [World.target, World.target, h.tree, h.cwd]

theorem kind? (h : w.Still v) (p : Path) : v.kind? p = w.kind? p := by
  rw [World.kind?, World.kind?, h.target, h.tree]

theorem read (h : w.Still v) (p : Path) : v.read p = w.read p := by
  rw [World.read, World.read, h.target, h.tree]

end World.Still

/-- The session changes nothing but the log. -/
def OnlyLogs (act : Session α) : Prop :=
  ∀ w : World, w.Still (act w).2

theorem OnlyLogs.still {act : Session α} (h : OnlyLogs act) {a : α} (hact : act w = (a, v)) :
    w.Still v :=
  session_leaves hact (h w)

theorem onlyLogs_pure (a : α) : OnlyLogs (pure a) :=
  fun w => World.Still.refl w

theorem OnlyLogs.bind {act : Session α} {next : α → Session β} (h : OnlyLogs act)
    (h' : ∀ a, OnlyLogs (next a)) : OnlyLogs (act >>= next) :=
  fun w => (h w).trans (h' (act w).1 (act w).2)

theorem composes_onlyLogs : Composes OnlyLogs where
  pure := onlyLogs_pure
  bind := OnlyLogs.bind

theorem onlyLogs_read (p : Path) : OnlyLogs (Host.read p) :=
  fun w => World.Still.refl w

theorem onlyLogs_kind? (p : Path) : OnlyLogs (Host.kind? p) :=
  fun w => World.Still.refl w

theorem onlyLogs_log (record : LogRecord) : OnlyLogs (Host.log record) :=
  fun _ => ⟨rfl, rfl⟩

theorem onlyLogs_pathExists (p : Path) : OnlyLogs (pathExists p) :=
  holds_pathExists composes_onlyLogs (onlyLogs_kind? p)

theorem onlyLogs_isDirectory_else (p : Path) (e : OsError) :
    OnlyLogs (do if ← isDirectory p then return .ok () else return .error e :
      Session (Except OsError Unit)) :=
  holds_isDirectory_else composes_onlyLogs (onlyLogs_kind? p) e

theorem onlyLogs_readText (p : Path) : OnlyLogs (readText p) :=
  holds_readText composes_onlyLogs (onlyLogs_read p)

/-- A text that is read is the content of a file. -/
theorem read_of_readText {text : String}
    (h : ((readText p : Session (Except OsError String)) w).1 = .ok text) :
    ∃ bytes, w.read p = .ok bytes := by
  cases hread : w.read p with
  | ok bytes => exact ⟨bytes, rfl⟩
  | error e =>
      have hhost : (Host.read p : Session (Except OsError ByteArray)) w = (.error e, w) :=
        congrArg (·, w) hread
      rw [readText, session_bind, hhost] at h
      cases h

/-! ### Sessions that do the same in two worlds -/

/-- The session only logs and gives the same in both worlds, whatever their logs are. -/
def Alike (w v : World) (act : Session α) : Prop :=
  ∀ w' v' : World, w.Still w' → v.Still v' →
    (act v').1 = (act w').1 ∧ w.Still (act w').2 ∧ v.Still (act v').2

theorem alike_pure (a : α) : Alike w v (pure a) :=
  fun _ _ hw hv => ⟨rfl, hw, hv⟩

theorem Alike.value {act : Session α} (h : Alike w v act) (hw : w.Still x) :
    (act x).1 = (act w).1 :=
  (h x v hw (.refl v)).1.symm.trans (h w v (.refl w) (.refl v)).1

/-- What comes after a session has to do the same for what that one gives. -/
theorem Alike.bind {act : Session α} {next : α → Session β} (h : Alike w v act)
    (h' : Alike w v (next (act w).1)) : Alike w v (act >>= next) := by
  intro w' v' hw hv
  obtain ⟨hsame, hw', hv'⟩ := h w' v' hw hv
  rw [session_bind, session_bind, hsame, h.value hw]
  exact h' _ _ hw' hv'

theorem composes_alike : Composes (Alike w v) where
  pure := alike_pure
  bind h h' := h.bind (h' _)

theorem alike_log (record : LogRecord) : Alike w v (Host.log record) :=
  fun _ _ hw hv => ⟨rfl, hw.trans ⟨rfl, rfl⟩, hv.trans ⟨rfl, rfl⟩⟩

theorem alike_kind? (h : v.kind? p = w.kind? p) : Alike w v (Host.kind? p) :=
  fun _ _ hw hv => ⟨(hv.kind? p).trans (h.trans (hw.kind? p).symm), hw, hv⟩

theorem alike_pathExists (h : v.kind? p = w.kind? p) : Alike w v (pathExists p) :=
  holds_pathExists composes_alike (alike_kind? h)

theorem alike_read (h : v.read p = w.read p) : Alike w v (Host.read p) :=
  fun _ _ hw hv => ⟨(hv.read p).trans (h.trans (hw.read p).symm), hw, hv⟩

theorem alike_readText (h : v.read p = w.read p) : Alike w v (readText p) :=
  holds_readText composes_alike (alike_read h)

/-! ### Quiet sessions -/

/-- The session writes no file. -/
def Quiet (act : Session α) : Prop :=
  ∀ w : World, w.Changes (fun _ => False) (act w).2

theorem Quiet.changes {act : Session α} (h : Quiet act) {a : α} (hact : act w = (a, v)) :
    w.Changes (fun _ => False) v :=
  session_leaves hact (h w)

theorem OnlyLogs.quiet {act : Session α} (h : OnlyLogs act) : Quiet act :=
  fun w => (h w).changes

theorem composes_quiet : Composes Quiet where
  pure _ w := World.Changes.refl w
  bind h h' w := (h w).trans (h' _ _)

theorem quiet_makeDirectory (p : Path) : Quiet (Host.makeDirectory p) := by
  intro w
  show w.Changes _ (changeWorld (fun w => w.makeDirectory p) w).2
  unfold changeWorld
  split
  · rename_i v hv
    exact World.changes_makeDirectory hv
  · exact World.Changes.refl w

theorem quiet_makeLineage (paths : List Path) : Quiet (makeLineage paths) :=
  holds_makeLineage composes_quiet (fun path _ => (onlyLogs_kind? path).quiet)
    fun path _ => quiet_makeDirectory path

/-- **Making directories writes no file.** -/
theorem quiet_makeDirectories (p : Path) : Quiet (makeDirectories p) :=
  quiet_makeLineage p.ancestors

/-- A directory that cannot be made leaves the world as it is. -/
theorem makeDirectory_cases (p : Path) (w : World) :
    (∃ directory name, lookup w.tree w.cwd .entry p = .absent directory name) ∨
      ∃ e, (Host.makeDirectory p : Session (Except OsError Unit)) w = (.error e, w) := by
  cases hlookup : lookup w.tree w.cwd .entry p with
  | absent directory name => exact Or.inl ⟨directory, name, rfl⟩
  | found location =>
      refine Or.inr ⟨.alreadyExists, ?_⟩
      show changeWorld (fun w => w.makeDirectory p) w = _
      rw [changeWorld, World.makeDirectory, hlookup]
  | failed e =>
      refine Or.inr ⟨e, ?_⟩
      show changeWorld (fun w => w.makeDirectory p) w = _
      rw [changeWorld, World.makeDirectory, hlookup]

/-- **Making directories makes none, unless one of them was missing from a directory.** -/
theorem makeLineage_cases {paths : List Path}
    (h : (makeLineage paths : Session (Except OsError Unit)) w = (.ok (), v)) :
    w.Still v ∨ ∃ path ∈ paths, ∃ directory name,
      lookup w.tree w.cwd .entry path = .absent directory name := by
  induction paths generalizing v with
  | nil => exact Or.inl ((onlyLogs_pure _).still h)
  | cons path ancestors ih =>
      rcases makeDirectory_cases path w with habsent | ⟨e, hmade⟩
      · exact Or.inr ⟨path, List.mem_cons_self, habsent⟩
      rw [makeLineage, session_bind, hmade] at h
      cases e with
      | notFound =>
          obtain ⟨result, u, hancestors, hafter⟩ := session_bind_cases h
          cases result with
          | error e => cases hafter
          | ok _ =>
              rcases ih hancestors with hstill | ⟨above, hmem, habsent⟩
              · rcases makeDirectory_cases path u with habsent | ⟨e', hmade'⟩
                · rw [hstill.tree, hstill.cwd] at habsent
                  exact Or.inr ⟨path, List.mem_cons_self, habsent⟩
                · replace hafter :
                    (ensureDirectory path : Session (Except OsError Unit)) u = (.ok (), v) := hafter
                  rw [ensureDirectory, session_bind, hmade'] at hafter
                  exact Or.inl (hstill.trans ((onlyLogs_isDirectory_else path e').still hafter))
              · exact Or.inr ⟨above, List.mem_cons_of_mem _ hmem, habsent⟩
      | _ => exact Or.inl ((onlyLogs_isDirectory_else path _).still h)

/-! ### Sessions that do not read the log -/

/-- What the session does does not depend on the log. -/
def LogBlind (act : Session α) : Prop :=
  ∀ w v : World, w.Still v → (act v).1 = (act w).1 ∧ (act w).2.Still (act v).2

theorem logBlind_pure (a : α) : LogBlind (pure a) :=
  fun _ _ h => ⟨rfl, h⟩

theorem LogBlind.bind {act : Session α} {next : α → Session β} (h : LogBlind act)
    (h' : ∀ a, LogBlind (next a)) : LogBlind (act >>= next) := by
  intro w v hstill
  obtain ⟨hsame, hstill'⟩ := h w v hstill
  rw [session_bind, session_bind, hsame]
  exact h' _ _ _ hstill'

theorem composes_logBlind : Composes LogBlind where
  pure := logBlind_pure
  bind := LogBlind.bind

theorem logBlind_read (p : Path) : LogBlind (Host.read p) :=
  fun _ _ h => ⟨h.read p, h⟩

theorem logBlind_kind? (p : Path) : LogBlind (Host.kind? p) :=
  fun _ _ h => ⟨h.kind? p, h⟩

theorem logBlind_log (record : LogRecord) : LogBlind (Host.log record) :=
  fun _ _ h => ⟨rfl, h.tree, h.cwd⟩

theorem logBlind_makeDirectory (p : Path) : LogBlind (Host.makeDirectory p) := by
  rintro ⟨tree, cwd, log, _⟩ ⟨tree', cwd', log', _⟩ ⟨htree, hcwd⟩
  obtain rfl : tree' = tree := htree
  obtain rfl : cwd' = cwd := hcwd
  simp only [Host.makeDirectory, changeWorld, World.makeDirectory]
  cases lookup tree' cwd' .entry p <;> exact ⟨rfl, rfl, rfl⟩

theorem logBlind_write (p : Path) (content : ByteArray) : LogBlind (Host.write p content) := by
  rintro ⟨tree, cwd, log, _⟩ ⟨tree', cwd', log', _⟩ ⟨htree, hcwd⟩
  obtain rfl : tree' = tree := htree
  obtain rfl : cwd' = cwd := hcwd
  simp only [Host.write, changeWorld, World.write]
  cases lookup tree' cwd' .output p with
  | failed e => exact ⟨rfl, rfl, rfl⟩
  | absent directory name => exact ⟨rfl, rfl, rfl⟩
  | found location =>
      simp only
      cases tree'.find? location with
      | none => exact ⟨rfl, rfl, rfl⟩
      | some entry => cases entry <;> exact ⟨rfl, rfl, rfl⟩

theorem logBlind_readText (p : Path) : LogBlind (readText p) :=
  holds_readText composes_logBlind (logBlind_read p)

/-- **Making directories does not read the log.** -/
theorem logBlind_makeDirectories (p : Path) : LogBlind (makeDirectories p) :=
  holds_makeLineage composes_logBlind (fun path _ => logBlind_kind? path)
    fun path _ => logBlind_makeDirectory path

end UseCases.Files
