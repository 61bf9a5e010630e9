/-
What a parameter list says of its text.

The text of a list is divided by its commas and by its group: what stands before the group, the
entries inside it, and what follows its closing bracket, which may hold a group again.  `listed`
divides a whole text that way.

The reader of a list goes as far as the bracket that closes the first group.  Of the entries up to
there it drops none and makes up none: each one is accepted, as a parameter made of its parts, or
rejected as it stands, and they stay in their order.  The text behind that bracket is not looked
at, so the entries in it are lost without a remark.  A list is read completely when only commas and
white space stand there; a list without a group, and one whose group nothing closes, has no such
text.
-/
import Mathlib.Data.List.Forall2
import UseCases.Declaration.Extraction
import UseCases.Proofs.Declaration.ParameterParts

namespace UseCases.Declaration

open Dart Text

variable {text : List Char}

/-! ### The entries of a whole text -/

/-- The entries of a text, as entries of one kind. -/
def divided (kind : ParameterKind) (text : List Char) : List (ParameterKind × List Char) :=
  (splitTopLevel ',' text).map fun entry => (kind, entry)

theorem length_after_cut {isCut : Char → Bool} {cut : Cut} (h : cut? isCut text = some cut) :
    cut.after.length < text.length := by
  rw [(cutFrom?_split h).1, List.length_append, List.length_cons]
  omega

theorem length_after_enclosed {opening closing : Char} {e : Enclosed}
    (h : enclosed? opening closing text = some e) : e.after.length < text.length := by
  rw [enclosed?_split h, List.length_append, List.length_cons]
  omega

/-- The entries of a whole text, each with the kind it stands among.  A group stands for the
entries inside it, and what follows its closing bracket is divided in the same way. -/
def listed (text : List Char) : List (ParameterKind × List Char) :=
  match _ : cut? (fun c => c == '\x7b' || c == '[') text with
  | none => divided .positional text
  | some cut =>
    match _ : enclosed? cut.mark (groupOf cut.mark).1 cut.after with
    | none => divided .positional cut.before ++ divided (groupOf cut.mark).2 cut.after
    | some e =>
      divided .positional cut.before ++ divided (groupOf cut.mark).2 e.inside ++ listed e.after
termination_by text.length
decreasing_by exact (length_after_enclosed ‹_›).trans (length_after_cut ‹_›)

theorem listed_nil : listed [] = [] := by
  rw [listed]
  split
  · rfl
  · rename_i cut hcut
    cases hcut

/-! ### The entries that are read -/

/-- The text behind the bracket that closes the group of a list. -/
def behindGroup (text : List Char) : List Char :=
  match cut? (fun c => c == '\x7b' || c == '[') text with
  | none => []
  | some cut => ((enclosed? cut.mark (groupOf cut.mark).1 cut.after).map Enclosed.after).getD []

/-- The entries of a list up to the end of its group. -/
def reached (text : List Char) : List (ParameterKind × List Char) :=
  divided .positional (ParameterText.ofList text).positional
    ++ (ParameterText.ofList text).group.elim [] fun g => divided g.2 g.1

/-- **The entries of a text are those that are reached and those behind the group.** -/
theorem listed_eq (text : List Char) : listed text = reached text ++ listed (behindGroup text) := by
  rw [listed, reached, behindGroup]
  split
  · rename_i hcut
    rw [ofList_uncut hcut, hcut, listed_nil]
    simp
  · rename_i cut hcut
    rw [ofList_cut hcut, hcut]
    split
    · rename_i hopen
      simp [hopen, listed_nil]
    · rename_i e hclosed
      simp [hclosed]

/-- How a text is cut into the parts of a list and what is left of it. -/
inductive Regions (text : List Char) : Prop
  | flat (parts : ParameterText.ofList text = ⟨text, none⟩) (behind : behindGroup text = [])
  | unclosed {positional inside : List Char} {opening : Char}
      (parts : ParameterText.ofList text = ⟨positional, some (inside, (groupOf opening).2)⟩)
      (whole : text = positional ++ opening :: inside) (behind : behindGroup text = [])
  | closed {positional inside : List Char} {opening : Char}
      (parts : ParameterText.ofList text = ⟨positional, some (inside, (groupOf opening).2)⟩)
      (whole : text
        = positional ++ opening :: (inside ++ (groupOf opening).1 :: behindGroup text))

/-- **A list has no other parts** than its positional one and its group, and no other text is left
over than the one behind the group. -/
theorem regions (text : List Char) : Regions text := by
  cases hcut : cut? (fun c => c == '\x7b' || c == '[') text with
  | none => exact .flat (ofList_uncut hcut) (by rw [behindGroup, hcut])
  | some cut =>
      obtain ⟨htext, -⟩ := cutFrom?_split hcut
      have hparts := ofList_cut hcut
      cases hclosed : enclosed? cut.mark (groupOf cut.mark).1 cut.after with
      | none =>
          rw [hclosed] at hparts
          refine .unclosed hparts htext ?_
          rw [behindGroup, hcut]
          simp [hclosed]
      | some e =>
          rw [hclosed] at hparts
          have hbehind : behindGroup text = e.after := by
            rw [behindGroup, hcut]
            simp [hclosed]
          refine .closed hparts ?_
          rw [hbehind, Option.map_some, Option.getD_some, ← enclosed?_split hclosed]
          exact htext

/-- The reader of a list reads the entries that it reaches. -/
theorem entries_eq_map (text : List Char) :
    entries text = (reached text).map fun entry => Entry.read entry.1 entry.2 := by
  have hpart : ∀ (kind : ParameterKind) (part : List Char),
      readEntries kind part = (divided kind part).map fun entry => Entry.read entry.1 entry.2 := by
    intro kind part
    rw [readEntries, divided, List.map_map]
    rfl
  rw [entries, reached, List.map_append, ← hpart]
  cases (ParameterText.ofList text).group with
  | none => rfl
  | some g => exact congrArg (_ ++ ·) (hpart g.2 g.1)

/-! ### What becomes of an entry -/

/-- An entry of a kind is accepted as a parameter that is made of its parts, or it is rejected as it
stands. -/
inductive Becomes (kind : ParameterKind) (entry : List Char) : Entry → Prop
  | accepted {p : Parameter} (read : readParameter? kind entry = some p) (formed : IsWellFormed p)
      (group : groupKind p.kind = groupKind kind) (parts : InOrder p.parts entry) :
      Becomes kind entry (.accepted p)
  | rejected (unread : readParameter? kind entry = none) : Becomes kind entry (.rejected entry)

theorem becomes_read {kind : ParameterKind} {entry : List Char}
    (h : cut? (· == ',') entry = none) : Becomes kind entry (Entry.read kind entry) := by
  unfold Entry.read
  cases hread : readParameter? kind entry with
  | none => exact .rejected hread
  | some p =>
      obtain ⟨hformed, hgroup, hparts⟩ := readParameter?_sound hread h
      exact .accepted hread hformed hgroup hparts

theorem divided_map (kind : ParameterKind) (text : List Char) :
    (divided kind text).map Prod.snd = splitTopLevel ',' text := by
  rw [divided, List.map_map]
  exact List.map_id _

theorem divided_inOrder (kind : ParameterKind) (text : List Char) :
    InOrder ((divided kind text).map Prod.snd) text := by
  rw [divided_map]
  exact splitTopLevel_inOrder ',' text

/-- The entries that are reached stand before the text behind the group. -/
theorem reached_inOrder (text : List Char) :
    ∃ front, text = front ++ behindGroup text ∧ InOrder ((reached text).map Prod.snd) front := by
  unfold reached
  rw [List.map_append]
  cases regions text with
  | flat parts behind =>
      refine ⟨text, by rw [behind, List.append_nil], ?_⟩
      rw [parts]
      simpa using divided_inOrder .positional text
  | @unclosed positional inside opening parts whole behind =>
      refine ⟨text, by rw [behind, List.append_nil], ?_⟩
      rw [parts]
      have hboth := (divided_inOrder .positional positional).append
        ((divided_inOrder (groupOf opening).2 inside).prepend [opening])
      rwa [List.singleton_append, ← whole] at hboth
  | @closed positional inside opening parts whole =>
      refine ⟨positional ++ (opening :: (inside ++ [(groupOf opening).1])), ?_, ?_⟩
      · simpa using whole
      · rw [parts]
        have hinside := ((divided_inOrder (groupOf opening).2 inside).within
          (List.prefix_append inside [(groupOf opening).1]).isInfix).prepend [opening]
        exact (divided_inOrder .positional positional).append hinside

theorem length_behindGroup (h : behindGroup text ≠ []) :
    (behindGroup text).length < text.length := by
  cases regions text with
  | flat _ behind => exact absurd behind h
  | unclosed _ _ behind => exact absurd behind h
  | closed _ whole =>
      have hlength := congrArg List.length whole
      simp only [List.length_append, List.length_cons] at hlength
      omega

/-- **The entries of a whole text stand in it in their order.** -/
theorem listed_inOrder (text : List Char) : InOrder ((listed text).map Prod.snd) text := by
  obtain ⟨front, htext, hfront⟩ := reached_inOrder text
  rw [listed_eq, List.map_append]
  by_cases hbehind : behindGroup text = []
  · rw [hbehind, List.append_nil] at htext
    rw [hbehind, listed_nil, List.map_nil, List.append_nil]
    rwa [← htext] at hfront
  · have hboth := hfront.append (listed_inOrder (behindGroup text))
    rwa [← htext] at hboth
termination_by text.length
decreasing_by exact length_behindGroup hbehind

/-! ### What is lost -/

theorem cutFrom?_eq_none_of_forall {isCut : Char → Bool} (h : ∀ c ∈ text, isCut c = false)
    (p : Place) : cutFrom? isCut p text = none := by
  induction text generalizing p with
  | nil => rfl
  | cons c cs ih =>
      refine cutFrom?_cons_eq_none.mpr ⟨by simp [h c List.mem_cons_self], ?_⟩
      exact ih (fun d hd => h d (List.mem_cons_of_mem c hd)) (p.next c)

/-- There are no entries in commas and white space. -/
theorem listed_of_blank (h : ∀ c ∈ text, c = ',' ∨ isBlank c = true) : listed text = [] := by
  have hflat : cut? (fun c => c == '\x7b' || c == '[') text = none := by
    refine cutFrom?_eq_none_of_forall (fun c hc => ?_) .top
    rcases h c hc with rfl | hblank
    · decide
    · have hc := isFlat_of_forall (p := isBlank) (by decide) hblank
      simp only [isFlat, isOpening, Bool.and_eq_true, Bool.not_eq_true', Bool.or_eq_false_iff] at hc
      simp [hc.1.1]
  have hreached : reached text = divided .positional text := by
    rw [reached, ofList_uncut hflat]
    exact List.append_nil _
  have hbehind : behindGroup text = [] := by rw [behindGroup, hflat]
  rw [listed_eq, hreached, hbehind, listed_nil, List.append_nil, divided, List.map_eq_nil_iff,
    List.eq_nil_iff_forall_not_mem]
  intro entry hentry
  obtain ⟨hne, htrim, huncut⟩ := entry_of_mem_splitTopLevel hentry
  obtain ⟨c, cs, rfl⟩ := List.exists_cons_of_ne_nil hne
  have hmem := ((splitTopLevel_inOrder ',' text).infix_of_mem hentry).subset List.mem_cons_self
  rcases h c hmem with rfl | hblank
  · rw [cut?, cutFrom?_hit rfl rfl] at huncut
    cases huncut
  · rw [trim_cons_blank hblank] at htrim
    have hlength := length_trim_le cs
    rw [htrim, List.length_cons] at hlength
    omega

theorem length_views (es : List Entry) :
    (accepted es).length + (rejected es).length = es.length := by
  induction es with
  | nil => rfl
  | cons e rest ih =>
      have happend : (accepted (e :: rest)).length + (rejected (e :: rest)).length
          = (accepted rest).length + (rejected rest).length + 1 := by
        cases e with
        | accepted p => exact Nat.add_right_comm _ 1 _
        | rejected t => rfl
      rw [happend, ih, List.length_cons]

/-- **Every entry that is reached becomes one entry of the list.** -/
theorem reached_becomes (text : List Char) :
    List.Forall₂ (fun entry e => Becomes entry.1 entry.2 e) (reached text) (entries text) := by
  have hdivided : ∀ {kind : ParameterKind} {part : List Char} {entry : ParameterKind × List Char},
      entry ∈ divided kind part → cut? (· == ',') entry.2 = none := by
    intro kind part entry hentry
    obtain ⟨piece, hpiece, rfl⟩ := List.mem_map.mp hentry
    exact (entry_of_mem_splitTopLevel hpiece).2.2
  rw [entries_eq_map, List.forall₂_map_right_iff, List.forall₂_same]
  intro entry hentry
  refine becomes_read ?_
  rcases List.mem_append.mp hentry with hpositional | hgroup
  · exact hdivided hpositional
  · cases hg : (ParameterText.ofList text).group with
    | none =>
        rw [hg] at hgroup
        cases hgroup
    | some g =>
        rw [hg] at hgroup
        exact hdivided hgroup

/--
**A list says of each entry what became of it, up to the end of its group.**  The entries of the
whole text are those before the bracket that closes the first group and those behind it.  Each of
the former is accepted or rejected, one for one and in the order of the text; the latter are lost.
So the accepted and the rejected entries are those of the whole text if and only if there are none
behind the group, which is so when only commas and white space stand there, and when no bracket
closes a group.
-/
theorem entries_cover_list (text : List Char) :
    InOrder ((listed text).map Prod.snd) text ∧
    (∃ read, listed text = read ++ listed (behindGroup text) ∧
      List.Forall₂ (fun entry e => Becomes entry.1 entry.2 e) read (entries text) ∧
      (accepted (entries text)).length + (rejected (entries text)).length = read.length) ∧
    (List.Forall₂ (fun entry e => Becomes entry.1 entry.2 e) (listed text) (entries text) ↔
      listed (behindGroup text) = []) ∧
    ((∀ c ∈ behindGroup text, c = ',' ∨ isBlank c = true) → listed (behindGroup text) = []) := by
  have hbecomes := reached_becomes text
  have hlength := hbecomes.length_eq
  refine ⟨listed_inOrder text, ⟨reached text, listed_eq text, hbecomes, ?_⟩, ⟨?_, ?_⟩,
    listed_of_blank⟩
  · rw [length_views, hlength]
  · intro hall
    have hwhole := hall.length_eq
    rw [listed_eq, List.length_append, hlength] at hwhole
    exact List.length_eq_zero_iff.mp (by omega)
  · intro hnone
    rw [listed_eq, hnone, List.append_nil]
    exact hbecomes

/-- A list with an entry that is no parameter, a default with commas in it, and commas behind its
group. -/
def trailingList : List Char :=
  "this.x, final B b, [String s = f(1, '],'), C? c,], ,".toList

theorem trailingList_covered :
    (∀ c ∈ behindGroup trailingList, c = ',' ∨ isBlank c = true) ∧
      (listed trailingList).length = 4 ∧
      List.Forall₂ (fun entry e => Becomes entry.1 entry.2 e) (listed trailingList)
        (entries trailingList) := by
  have hall : ((behindGroup trailingList).all fun c => c == ',' || isBlank c) = true := by
    decide +kernel
  have hblank : ∀ c ∈ behindGroup trailingList, c = ',' ∨ isBlank c = true := fun c hc => by
    simpa using List.all_eq_true.mp hall c hc
  obtain ⟨-, -, hiff, hnone⟩ := entries_cover_list trailingList
  have hcover := hiff.mpr (hnone hblank)
  refine ⟨hblank, ?_, hcover⟩
  rw [hcover.length_eq]
  decide +kernel

/-- A list with an entry behind its group. -/
def tailedList : List Char :=
  "\x7bint a\x7d junk".toList

/-- What stands behind a group is neither accepted nor rejected, and no remark is made about it. -/
theorem tail_of_group_is_lost :
    listed tailedList = [(.named, "int a".toList), (.positional, "junk".toList)] ∧
      entries tailedList = [.accepted ⟨"int", "a", .named, none⟩] ∧
      (extract "Future<void> get(\x7bint a\x7d junk);").diagnostics = [] ∧
      ¬List.Forall₂ (fun entry e => Becomes entry.1 entry.2 e) (listed tailedList)
        (entries tailedList) := by
  have hlisted : listed tailedList = [(.named, "int a".toList), (.positional, "junk".toList)] := by
    have hbehind : behindGroup tailedList = " junk".toList := by decide +kernel
    have hrest : behindGroup " junk".toList = [] := by decide +kernel
    rw [listed_eq, hbehind, listed_eq, hrest, listed_nil]
    decide +kernel
  have hentries : entries tailedList = [.accepted ⟨"int", "a", .named, none⟩] := by decide +kernel
  refine ⟨hlisted, hentries, by decide +kernel, fun h => ?_⟩
  have hlength := h.length_eq
  rw [hlisted, hentries] at hlength
  cases hlength

end UseCases.Declaration
