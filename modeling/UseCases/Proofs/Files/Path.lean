/-
Paths as they are written.

What a path leads to depends on where it starts and on its steps: the names between its slashes,
and the `..` that go up.  Joining a name to a path adds a step, and the ancestors of a path have
the first of its steps.
-/
import UseCases.Proofs.Files.Lookup

namespace UseCases.Files

variable {cwd : Location} {p q : Path} {name : String}

/-! ### Steps -/

/-- A piece of a path that is followed: a name or a step up. -/
def isStep (piece : String) : Bool :=
  piece != "" && piece != "."

/-- The pieces of a path that are followed. -/
def Path.steps (p : Path) : List String :=
  (pathPieces p).filter isStep

theorem isStep_of_isPlain (h : IsPlain name) : isStep name = true := by
  rw [isStep, Bool.and_eq_true, bne_iff_ne, bne_iff_ne]
  exact ⟨fun hempty => h.1 (Or.inl hempty), fun hdot => h.1 (Or.inr hdot)⟩

/-! ### Joined paths -/

theorem pathPieces_name (h : '/' ∉ name.toList) : pathPieces name = [name] := by
  have hwhole : Path.pieces name = [name.toList] := by
    refine Text.splitAt_eq_singleton fun c hc => ?_
    rw [beq_eq_false_iff_ne]
    exact fun he => h (he ▸ hc)
  rw [pathPieces, hwhole, List.map_singleton, String.ofList_toList]

theorem pathPieces_append_slash {a b p : Path} (h : p.toList = a.toList ++ '/' :: b.toList) :
    pathPieces p = pathPieces a ++ pathPieces b := by
  rw [pathPieces, pathPieces, pathPieces, ← List.map_append, Path.pieces, Path.pieces,
    Path.pieces, h, Text.splitAt_append a.toList b.toList rfl]

theorem isAbsolute_name (h : '/' ∉ name.toList) : Path.isAbsolute name = false := by
  rw [Path.isAbsolute, beq_eq_false_iff_ne]
  exact fun he => h (List.mem_of_head? he)

theorem isAbsolute_append {folder : Path} (h : folder ≠ "") (rest : String) :
    Path.isAbsolute (folder ++ rest) = folder.isAbsolute := by
  obtain ⟨c, cs, hcs⟩ := List.exists_cons_of_ne_nil fun hnil => h (String.toList_inj.mp hnil)
  rw [Path.isAbsolute, Path.isAbsolute, String.toList_append, hcs]
  rfl

/-- A name joined to a path is its last piece, after all its steps. -/
theorem pathPieces_join (folder : Path) (hslash : '/' ∉ name.toList) :
    ∃ front, pathPieces (folder.join name) = front ++ [name] ∧
      front.filter isStep = folder.steps := by
  rw [Path.join, isAbsolute_name hslash, if_neg Bool.false_ne_true]
  by_cases hempty : folder = ""
  · rw [hempty, if_pos (by decide), String.empty_append, pathPieces_name hslash]
    exact ⟨[], rfl, rfl⟩
  · by_cases hends : Text.endsWith ['/'] folder.toList = true
    · obtain ⟨front, hfront⟩ := List.isSuffixOf_iff_suffix.mp hends
      have hpieces : pathPieces folder = pathPieces (String.ofList front) ++ [""] :=
        pathPieces_append_slash (b := "") (by rw [String.toList_ofList]; exact hfront.symm)
      have hnothing : [""].filter isStep = [] := rfl
      rw [if_pos (by rw [hends, Bool.or_true])]
      refine ⟨pathPieces (String.ofList front), ?_, ?_⟩
      · rw [← pathPieces_name hslash]
        refine pathPieces_append_slash ?_
        rw [String.toList_append, ← hfront, String.toList_ofList, List.append_assoc]
        rfl
      · rw [Path.steps, hpieces, List.filter_append, hnothing, List.append_nil]
    · have hjoin : ¬(folder.isEmpty || Text.endsWith ['/'] folder.toList) = true := by
        simpa [hempty] using hends
      rw [if_neg hjoin]
      refine ⟨pathPieces folder, ?_, rfl⟩
      rw [← pathPieces_name hslash]
      refine pathPieces_append_slash ?_
      rw [String.toList_append, String.toList_append, List.append_assoc]
      rfl

/-- A name joined to a path is the last step. -/
theorem steps_join {folder : Path} (hplain : IsPlain name) (hslash : '/' ∉ name.toList) :
    (folder.join name).steps = folder.steps ++ [name] := by
  obtain ⟨front, hpieces, hfront⟩ := pathPieces_join folder hslash
  rw [Path.steps, hpieces, List.filter_append, hfront,
    List.filter_cons_of_pos (isStep_of_isPlain hplain), List.filter_nil]

theorem fileName?_join {folder : Path} (hplain : IsPlain name) (hslash : '/' ∉ name.toList) :
    (folder.join name).fileName? = some name := by
  obtain ⟨front, hpieces, -⟩ := pathPieces_join folder hslash
  obtain ⟨before, last, hsplit, -, hlast⟩ := List.map_eq_append_iff.mp hpieces
  obtain ⟨piece, rfl, rfl⟩ := List.map_eq_singleton_iff.mp hlast
  have hcomponent : Path.isComponent piece before.reverse = true := by
    rw [Path.isComponent, Bool.and_eq_true, Bool.or_eq_true, bne_iff_ne]
    refine ⟨?_, Or.inl ?_⟩
    · cases piece with
      | nil => exact absurd (Or.inl rfl) hplain.1
      | cons c cs => rfl
    · rintro rfl
      exact hplain.1 (Or.inr rfl)
  have hname : (piece == ['.'] || piece == ['.', '.']) = false := by
    rw [Bool.or_eq_false_iff, beq_eq_false_iff_ne, beq_eq_false_iff_ne]
    constructor
    · rintro rfl
      exact hplain.1 (Or.inr rfl)
    · rintro rfl
      exact hplain.2 rfl
  rw [Path.fileName?, hsplit, List.reverse_append, List.reverse_singleton, List.singleton_append,
    Path.fromComponent, if_pos hcomponent]
  simp only [hname, Bool.false_eq_true, if_false]

theorem isAbsolute_join {folder : Path} (hslash : '/' ∉ name.toList) :
    (folder.join name).isAbsolute = folder.isAbsolute := by
  rw [Path.join, isAbsolute_name hslash, if_neg Bool.false_ne_true]
  by_cases hempty : folder = ""
  · rw [hempty, if_pos (by decide), String.empty_append, isAbsolute_name hslash]
    rfl
  · split
    · exact isAbsolute_append hempty name
    · rw [String.append_assoc, isAbsolute_append hempty]

theorem startOf_join {folder : Path} (hslash : '/' ∉ name.toList) :
    startOf cwd (folder.join name) = startOf cwd folder := by
  rw [startOf, startOf, isAbsolute_join hslash]

/-! ### Ancestors -/

theorem fromComponent_suffix (reversed : List (List Char)) :
    Path.fromComponent reversed <:+ reversed := by
  induction reversed with
  | nil => exact List.suffix_refl _
  | cons piece before ih =>
      rw [Path.fromComponent]
      split
      · exact List.suffix_refl _
      · exact ih.trans (List.suffix_cons piece before)

/-- The pieces from a component on are more than an empty piece. -/
theorem fromComponent_ne_empty (reversed : List (List Char)) :
    Path.fromComponent reversed ≠ [[]] := by
  induction reversed with
  | nil => simp [Path.fromComponent]
  | cons piece before ih =>
      rw [Path.fromComponent]
      split
      · rename_i hcomponent
        rintro ⟨⟩
        cases hcomponent
      · exact ih

theorem pieces_join {pieces : List (List Char)} (hne : pieces ≠ [])
    (h : ∀ piece ∈ pieces, '/' ∉ piece) :
    Path.pieces (Text.join "/" (pieces.map String.ofList)) = pieces := by
  induction pieces with
  | nil => exact absurd rfl hne
  | cons first rest ih =>
      have hfirst : Text.splitAt (· == '/') first = [first] := by
        refine Text.splitAt_eq_singleton fun c hc => ?_
        rw [beq_eq_false_iff_ne]
        exact fun he => h first List.mem_cons_self (he ▸ hc)
      cases rest with
      | nil =>
          rw [Path.pieces, List.map_singleton, Text.join, String.toList_ofList]
          exact hfirst
      | cons second more =>
          have hrest := ih (by simp) fun piece hpiece => h piece (List.mem_cons_of_mem first hpiece)
          rw [Path.pieces, List.map_cons, List.map_cons, Text.toList_join_cons,
            String.toList_ofList, List.append_assoc]
          rw [Path.pieces, List.map_cons] at hrest
          rw [show "/".toList = ['/'] from rfl, List.singleton_append,
            Text.splitAt_append first _ rfl, hfirst, hrest, List.singleton_append]

/-- A path is absolute if an empty piece stands before its other pieces. -/
theorem isAbsolute_iff : p.isAbsolute = true ↔ p.pieces.head? = some [] ∧ p.pieces ≠ [[]] := by
  rw [Path.isAbsolute, Path.pieces]
  cases p.toList with
  | nil => simp [Text.splitAt]
  | cons c cs =>
      rw [Text.splitAt]
      split
      · rename_i hnil
        exact absurd hnil (Text.splitAt_ne_nil _ cs)
      · split <;> simp_all

/-- A path with the first pieces of another one starts where that one does. -/
theorem isAbsolute_of_prefix (h : q.pieces <+: p.pieces) (hmore : q.pieces ≠ [[]]) :
    q.isAbsolute = p.isAbsolute := by
  rw [Bool.eq_iff_iff, isAbsolute_iff, isAbsolute_iff]
  have hne : q.pieces ≠ [] := Text.splitAt_ne_nil _ q.toList
  obtain ⟨others, hothers⟩ := h
  have hhead : (q.pieces ++ others).head? = q.pieces.head? := by
    obtain ⟨first, rest, hfirst⟩ := List.exists_cons_of_ne_nil hne
    rw [hfirst]
    rfl
  rw [← hothers, hhead]
  refine and_congr_right fun _ => ⟨fun _ hall => ?_, fun _ => hmore⟩
  rcases List.append_eq_singleton_iff.mp hall with ⟨hnil, -⟩ | ⟨hempty, -⟩
  · exact hne hnil
  · exact hmore hempty

/-- **The parent of a path starts where the path starts, with the first of its steps.** -/
theorem parent?_steps (h : p.parent? = some q) :
    q.isAbsolute = p.isAbsolute ∧ q.steps <+: p.steps := by
  unfold Path.parent? at h
  split at h
  · cases h
  rename_i last before hcomponents
  obtain rfl := Option.some.inj h
  have hkept : (Path.fromComponent before).reverse <+: p.pieces := by
    rw [← List.reverse_suffix, List.reverse_reverse]
    refine (fromComponent_suffix before).trans ?_
    refine (List.suffix_cons last before).trans ?_
    rw [← hcomponents]
    exact fromComponent_suffix _
  by_cases hnone : (Path.fromComponent before).reverse = []
  · rw [hnone]
    cases hroot : p.isAbsolute with
    | true => exact ⟨rfl, List.nil_prefix⟩
    | false => exact ⟨rfl, List.nil_prefix⟩
  · have hpieces : Path.pieces (Path.ofPieces p.isAbsolute (Path.fromComponent before).reverse)
        = (Path.fromComponent before).reverse := by
      rw [Path.ofPieces, if_neg (by simpa using hnone)]
      exact pieces_join hnone fun piece hpiece => slash_notMem_pieces (hkept.subset hpiece)
    have hmore : (Path.fromComponent before).reverse ≠ [[]] := by
      intro he
      refine fromComponent_ne_empty before ?_
      rw [← List.reverse_reverse (Path.fromComponent before), he]
      rfl
    constructor
    · exact isAbsolute_of_prefix (by rw [hpieces]; exact hkept) (by rw [hpieces]; exact hmore)
    · rw [Path.steps, Path.steps, pathPieces, pathPieces, hpieces]
      exact (hkept.map String.ofList).filter isStep

theorem lineage_steps {fuel : Nat} (h : q ∈ Path.lineage fuel p) :
    q.isAbsolute = p.isAbsolute ∧ q.steps <+: p.steps := by
  induction fuel generalizing p with
  | zero => cases h
  | succ fuel ih =>
      rw [Path.lineage] at h
      split at h
      · cases h
      · split at h
        · rename_i parent hparent
          rcases List.mem_cons.mp h with rfl | h
          · exact ⟨rfl, List.prefix_refl _⟩
          · obtain ⟨hstart, hsteps⟩ := parent?_steps hparent
            obtain ⟨hstart', hsteps'⟩ := ih h
            exact ⟨hstart'.trans hstart, hsteps'.trans hsteps⟩
        · rw [List.mem_singleton.mp h]
          exact ⟨rfl, List.prefix_refl _⟩

/-- The ancestors of a path start where the path starts, with the first of its steps. -/
theorem ancestors_steps (h : q ∈ p.ancestors) :
    q.isAbsolute = p.isAbsolute ∧ q.steps <+: p.steps :=
  lineage_steps h

end UseCases.Files
