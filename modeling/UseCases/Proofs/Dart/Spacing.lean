/-
Blank rows in generated libraries.

A blank row is put between two parts, and each time between parts that are not empty.  So it is
enough that a part begins with a row that may follow a blank one and ends with a row that a blank
one may follow: parts with blank rows between them are such a part again, and so are they inside the
braces of a class.
-/
import Mathlib.Data.List.Chain
import UseCases.Proofs.Dart.CodeRows

namespace UseCases.Dart

open Text

variable {openings rows more : List String}

/-! ### Where a blank row may stand -/

/-- A blank row may stand in front of the row: it is not blank itself and closes no class. -/
def MayFollowBlank (row : String) : Prop :=
  row ≠ "" ∧ row ≠ "\x7d"

/-- A blank row may stand behind the row: it is not blank itself and opens no class. -/
def MayPrecedeBlank (openings : List String) (row : String) : Prop :=
  row ≠ "" ∧ row ∉ openings

/-- Two rows may stand one behind the other. -/
def Adjoin (openings : List String) (row next : String) : Prop :=
  (next = "" → MayPrecedeBlank openings row) ∧ (row = "" → MayFollowBlank next)

/-- Rows with blank ones only where they may stand, and that may have blank ones around them. -/
structure WellSpaced (openings rows : List String) : Prop where
  chain : rows.IsChain (Adjoin openings)
  first : ∀ row ∈ rows.head?, MayFollowBlank row
  last : ∀ row ∈ rows.getLast?, MayPrecedeBlank openings row

theorem adjoin_of_ne {row next : String} (hrow : row ≠ "") (hnext : next ≠ "") :
    Adjoin openings row next :=
  ⟨fun h => absurd h hnext, fun h => absurd h hrow⟩

namespace WellSpaced

theorem nil : WellSpaced openings [] :=
  ⟨.nil, by simp, by simp⟩

/-- Rows that are not blank and neither open nor close a class. -/
theorem of_plain (h : ∀ row ∈ rows, MayFollowBlank row ∧ MayPrecedeBlank openings row) :
    WellSpaced openings rows where
  chain := (List.pairwise_of_forall_mem_list fun row hrow next hnext =>
    adjoin_of_ne (h row hrow).1.1 (h next hnext).1.1).isChain
  first row hrow := (h row (List.mem_of_mem_head? hrow)).1
  last row hrow := (h row (List.mem_of_mem_getLast? hrow)).2

/-- A blank row may stand between two parts. -/
theorem blank_between (h : WellSpaced openings rows) (hmore : WellSpaced openings more)
    (hrows : rows ≠ []) (hne : more ≠ []) : WellSpaced openings (rows ++ "" :: more) where
  chain := by
    rw [List.isChain_append, List.isChain_cons]
    refine ⟨h.chain, ⟨fun next hnext => ?_, hmore.chain⟩, fun row hrow next hnext => ?_⟩
    · have hfirst := hmore.first next hnext
      exact ⟨fun hblank => absurd hblank hfirst.1, fun _ => hfirst⟩
    · have hlast := h.last row hrow
      exact ⟨fun _ => hlast, fun hblank => absurd hblank hlast.1⟩
  first row hrow := by
    rw [List.head?_append_of_ne_nil rows hrows] at hrow
    exact h.first row hrow
  last row hrow := by
    rw [List.getLast?_append_of_ne_nil _ (List.cons_ne_nil "" more),
      List.getLast?_cons_of_ne_nil hne] at hrow
    exact hmore.last row hrow

/-- **Parts with blank rows between them are well spaced.** -/
theorem of_parts {parts : List (List String)}
    (h : ∀ part ∈ parts, WellSpaced openings part ∧ part ≠ []) :
    WellSpaced openings (spread parts) := by
  induction parts with
  | nil => exact nil
  | cons part rest ih =>
      have hpart := h part List.mem_cons_self
      cases rest with
      | nil => exact hpart.1
      | cons next others =>
          have hrest := ih fun other hother => h other (List.mem_cons_of_mem part hother)
          have hnext := h next (List.mem_cons_of_mem part List.mem_cons_self)
          exact hpart.1.blank_between hrest hpart.2 (spread_ne_nil hnext.2 others)

/-- Well spaced rows between the braces of a class. -/
theorem braced {header : String} (h : WellSpaced openings rows) (hheader : MayFollowBlank header)
    (hclose : "\x7d" ∉ openings) : WellSpaced openings (header :: (rows ++ ["\x7d"])) where
  chain := by
    rw [List.isChain_cons, List.isChain_append]
    refine ⟨fun next hnext => adjoin_of_ne hheader.1 ?_, h.chain, .singleton _,
      fun row hrow next hnext => adjoin_of_ne (h.last row hrow).1 ?_⟩
    · rw [List.head?_append, Option.mem_def, Option.or_eq_some_iff] at hnext
      rcases hnext with hnext | ⟨-, hnext⟩
      · exact (h.first next hnext).1
      · rw [← Option.some.inj hnext]
        decide
    · rw [← Option.some.inj hnext]
      decide
  first row hrow := by
    rw [← Option.some.inj hrow]
    exact hheader
  last row hrow := by
    rw [← List.cons_append, List.getLast?_concat, Option.mem_def, Option.some.injEq] at hrow
    rw [← hrow]
    exact ⟨by decide, hclose⟩

theorem row_before_blank {above below : List String} {row : String}
    (h : WellSpaced openings (above ++ row :: "" :: below)) : MayPrecedeBlank openings row :=
  (List.isChain_append_cons_cons.mp h.chain).2.1.1 rfl

theorem row_behind_blank {above below : List String} {row : String}
    (h : WellSpaced openings (above ++ "" :: row :: below)) : MayFollowBlank row :=
  (List.isChain_append_cons_cons.mp h.chain).2.1.2 rfl

end WellSpaced

/-! ### Classes and libraries -/

theorem plain_of_head {row : String} {c : Char} (hrow : row.toList.head? = some c)
    (hheader : c ≠ 'c') (hclose : c ≠ '\x7d')
    (hopenings : ∀ opening ∈ openings, opening.toList.head? = some 'c') :
    MayFollowBlank row ∧ MayPrecedeBlank openings row := by
  have hne : row ≠ "" := by
    rintro rfl
    cases hrow
  refine ⟨⟨hne, ?_⟩, hne, fun hmem => ?_⟩
  · rintro rfl
    exact hclose (Option.some.inj hrow).symm
  · exact hheader (Option.some.inj (hrow.symm.trans (hopenings row hmem)))

theorem plain_member (indent : Indent) (row : String)
    (hopenings : ∀ opening ∈ openings, opening.toList.head? = some 'c') :
    MayFollowBlank (indent.unit ++ row) ∧ MayPrecedeBlank openings (indent.unit ++ row) := by
  obtain ⟨c, hc, hblank⟩ := exists_head_unit indent
  have hhead : (indent.unit ++ row).toList.head? = some c := by
    rw [String.toList_append, List.head?_append, hc]
    rfl
  refine plain_of_head hhead ?_ ?_ hopenings
  · rintro rfl
    exact absurd hblank (by decide)
  · rintro rfl
    exact absurd hblank (by decide)

theorem plain_directive (i : Import)
    (hopenings : ∀ opening ∈ openings, opening.toList.head? = some 'c') :
    MayFollowBlank i.directive ∧ MayPrecedeBlank openings i.directive :=
  plain_of_head (head_directive i) (by decide) (by decide) hopenings

/-- A class is well spaced. -/
theorem wellSpaced_class (indent : Indent) (c : ClassDefinition)
    (hopenings : ∀ opening ∈ openings, opening.toList.head? = some 'c') :
    WellSpaced openings (rowsOf indent 0 c.fragments) := by
  have hheader : MayFollowBlank c.header := by
    refine ⟨fun hempty => ?_, fun hclose => ?_⟩
    · exact absurd (hempty ▸ head_header c) (by decide)
    · exact absurd (hclose ▸ head_header c) (by decide)
  have hclose : "\x7d" ∉ openings := fun hmem => absurd (hopenings _ hmem) (by decide)
  rw [rowsOf_classDefinition]
  refine WellSpaced.braced (WellSpaced.of_parts fun part hpart => ?_) hheader hclose
  obtain ⟨group, hgroup, rfl⟩ := List.mem_map.mp hpart
  refine ⟨WellSpaced.of_plain fun row hrow => ?_, ?_⟩
  · obtain ⟨member, -, rfl⟩ := List.mem_map.mp hrow
    exact plain_member indent member hopenings
  · exact fun hnil => memberRows_ne_nil hgroup (List.map_eq_nil_iff.mp hnil)

/-- A library is well spaced. -/
theorem wellSpaced_ofAdditions (indent : Indent) (additions : List Addition) :
    WellSpaced ((Addition.classes additions).map ClassDefinition.header)
      (rowsOf indent 0 (Library.ofAdditions additions).fragments) := by
  have hopenings : ∀ opening ∈ (Addition.classes additions).map ClassDefinition.header,
      opening.toList.head? = some 'c' := by
    intro opening hopening
    obtain ⟨c, -, rfl⟩ := List.mem_map.mp hopening
    exact head_header c
  rw [Library.rowsOf_fragments, Library.body_ofAdditions, List.map_map]
  refine WellSpaced.of_parts fun part hpart => ?_
  rcases List.mem_append.mp hpart with himports | hclass
  · split at himports
    · cases himports
    · rename_i hne
      rw [List.mem_singleton.mp himports]
      refine ⟨WellSpaced.of_plain fun row hrow => ?_, fun hnil => hne ?_⟩
      · obtain ⟨i, -, rfl⟩ := List.mem_map.mp hrow
        exact plain_directive i hopenings
      · exact List.isEmpty_iff.mpr (List.map_eq_nil_iff.mp hnil)
  · obtain ⟨c, -, rfl⟩ := List.mem_map.mp hclass
    refine ⟨wellSpaced_class indent c hopenings, ?_⟩
    rw [Function.comp_apply, rowsOf_class]
    exact List.cons_ne_nil _ _

/-! ### The text -/

/-- Rows of which the last is not blank make a text that ends in one newline. -/
theorem rowsText_ends (hlines : ∀ row ∈ rows, OneLine row) (hlast : ∀ row ∈ rows.getLast?, row ≠ "")
    (hne : rows ≠ []) : ∃ front c, c ≠ '\n' ∧ rowsText rows = front ++ [c, '\n'] := by
  obtain ⟨above, row, rfl⟩ := List.eq_nil_or_concat rows |>.resolve_left hne
  have hrow : row.toList ≠ [] := fun hnil =>
    hlast row (by simp) (String.toList_inj.mp hnil)
  obtain ⟨front, c, hc⟩ := (List.eq_nil_or_concat row.toList).resolve_left hrow
  refine ⟨rowsText above ++ front, c, fun he => hlines row (by simp) ?_, ?_⟩
  · rw [hc, he]
    simp
  · simp [rowsText, hc]

/--
**Generated text is spaced canonically and loses nothing.**  The text of a library is empty or ends
in exactly one newline.  Its first row is not blank, no two blank rows follow each other, and no
blank row stands behind the header of a class or in front of the brace that closes a class.  The
rows that are not blank are the directives of its imports, each where it was first asked for, and
the rows of its classes in the order in which they were added.
-/
theorem canonical_spacing (indent : Indent) (additions : List Addition)
    (h : ∀ a ∈ additions, ∀ text ∈ a.texts, OneLine text) :
    (((Library.ofAdditions additions).render indent = "" ∨ ∃ front c, c ≠ '\n' ∧
      ((Library.ofAdditions additions).render indent).toList = front ++ [c, '\n'])) ∧
    ∃ rows : List String,
      lines ((Library.ofAdditions additions).render indent).toList
        = rows.map String.toList ++ [[]] ∧
      rows.head? ≠ some "" ∧
      (∀ above below, rows ≠ above ++ "" :: "" :: below) ∧
      (∀ c ∈ Addition.classes additions, ∀ above below, rows ≠ above ++ c.header :: "" :: below) ∧
      (∀ above below, rows ≠ above ++ "" :: "\x7d" :: below) ∧
      rows.filter (· ≠ "") = (Addition.imports additions).eraseDups.map Import.directive
        ++ (Addition.classes additions).flatMap (ClassDefinition.codeRows indent.unit) := by
  have hspaced := wellSpaced_ofAdditions indent additions
  have hlines := oneLine_ofAdditions indent h
  have htext : ((Library.ofAdditions additions).render indent).toList
      = rowsText (rowsOf indent 0 (Library.ofAdditions additions).fragments) := layOut_eq indent _
  refine ⟨?_, rowsOf indent 0 (Library.ofAdditions additions).fragments, ?_, ?_, ?_, ?_, ?_,
    Library.filter_ofAdditions indent additions⟩
  · by_cases hnil : rowsOf indent 0 (Library.ofAdditions additions).fragments = []
    · rw [hnil] at htext
      exact Or.inl (String.toList_inj.mp htext)
    · rw [htext]
      exact Or.inr (rowsText_ends hlines (fun row hrow => (hspaced.last row hrow).1) hnil)
  · rw [htext, lines_rowsText hlines]
  · exact fun hblank => (hspaced.first "" hblank).1 rfl
  · exact fun above below heq => (heq ▸ hspaced).row_before_blank.1 rfl
  · intro c hc above below heq
    exact (heq ▸ hspaced).row_before_blank.2 (List.mem_map_of_mem hc)
  · exact fun above below heq => (heq ▸ hspaced).row_behind_blank.2 rfl

/-- A library that is asked for one import twice, with a class without members. -/
def cartAdditions : List Addition :=
  [.imported ⟨"package:shop/cart_repository.dart"⟩,
    .declared ⟨"NoParams", some "Params", [], none,
      [⟨"props", "List<Object?>", .getter, false, true, .arrow "[]"⟩]⟩,
    .imported ⟨"package:shop/failures.dart"⟩,
    .declared ⟨"Empty", none, [], none, []⟩,
    .imported ⟨"package:shop/cart_repository.dart"⟩,
    .declared ⟨"ClearUseCase", none, [⟨"CartRepository", "cartRepository"⟩],
      some ⟨"ClearUseCase", false, ["this.cartRepository"], []⟩,
      [⟨"call", "Future<void>", .withParameters "", true, false,
        .lines ["await cartRepository.clear();"]⟩]⟩]

theorem cart_is_spaced :
    (∀ a ∈ cartAdditions, ∀ text ∈ a.texts, OneLine text) ∧
    ∃ rows : List String,
      lines ((Library.ofAdditions cartAdditions).render .standard).toList
        = rows.map String.toList ++ [[]] ∧
      (∀ above below, rows ≠ above ++ "" :: "" :: below) ∧
      rows.filter (· ≠ "") =
        ["import 'package:shop/cart_repository.dart';", "import 'package:shop/failures.dart';",
          "class NoParams extends Params \x7b", "  @override", "  List<Object?> get props => [];",
          "\x7d", "class Empty \x7b", "\x7d", "class ClearUseCase \x7b",
          "  final CartRepository cartRepository;", "  ClearUseCase(this.cartRepository);",
          "  Future<void> call() async \x7b", "    await cartRepository.clear();", "  \x7d",
          "\x7d"] := by
  have honeLine : ∀ a ∈ cartAdditions, ∀ text ∈ a.texts, OneLine text := by decide
  obtain ⟨-, rows, hlines, -, hblank, -, -, hcode⟩ :=
    canonical_spacing .standard cartAdditions honeLine
  exact ⟨honeLine, rows, hlines, hblank, hcode.trans (by decide)⟩

end UseCases.Dart
