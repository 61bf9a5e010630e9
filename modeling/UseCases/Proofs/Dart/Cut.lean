/-
Where a text is cut.

A cut is made at the first character that is code outside all brackets and that may be cut at.
Whether a character is, depends on what stands before it only through the place where its reader
has arrived, so a text that is cut nowhere can be taken apart: each beginning of it is cut nowhere,
and neither is what follows, read from where the beginning leaves off.

Two consequences are used wherever an entry is read on.  A piece between two cuts is cut nowhere
itself, and what follows a cut in a piece starts at the top again, so it is cut nowhere either.
-/
import UseCases.Proofs.Dart.Nesting
import UseCases.Proofs.Text.Order

namespace UseCases.Dart

open Text

variable {isCut : Char → Bool} {p : Place} {text : List Char}

/-! ### Places -/

/-- Where a text leaves its reader. -/
def Place.after (p : Place) (text : List Char) : Place :=
  text.foldl Place.next p

/-- The top is the only place where a character is code outside all brackets. -/
theorem Place.eq_top_of_isTop {c : Char} (h : p.isTop c = true) : p = .top := by
  obtain ⟨hcode, hdepth⟩ := Bool.and_eq_true_iff.mp h
  obtain ⟨l, n⟩ := p
  obtain rfl : l = .outside := (isCode_iff.mp hcode).1
  obtain rfl : n = 0 := beq_iff_eq.mp hdepth
  rfl

/-- A character that is neither a bracket nor a quote leaves a reader at the top where it is. -/
theorem Place.next_top {c : Char} (h : isFlat c = true) : Place.top.next c = .top := by
  simp only [isFlat, Bool.and_eq_true, Bool.not_eq_true'] at h
  obtain ⟨⟨hopening, hclosing⟩, hquote⟩ := h
  simp [Place.next, Place.top, Literal.next, Literal.isCode, Place.deepen, *]

theorem Place.after_top {text : List Char} (h : ∀ c ∈ text, isFlat c = true) :
    Place.top.after text = .top := by
  induction text with
  | nil => rfl
  | cons c cs ih =>
      rw [Place.after, List.foldl_cons, Place.next_top (h c List.mem_cons_self)]
      exact ih fun d hd => h d (List.mem_cons_of_mem c hd)

/-! ### The first cut -/

theorem cutFrom?_cons_eq_none {c : Char} {cs : List Char} :
    cutFrom? isCut p (c :: cs) = none ↔
      (p.isTop c && isCut c) = false ∧ cutFrom? isCut (p.next c) cs = none := by
  by_cases hcut : (p.isTop c && isCut c) = true
  · rw [cutFrom?, if_pos hcut]
    simp [hcut]
  · rw [cutFrom?, if_neg hcut]
    simp [Bool.not_eq_true _ ▸ hcut]

/-- **A text is cut nowhere if and only if its parts are.**  The second part is read from where
the first one leaves its reader. -/
theorem cutFrom?_append_eq_none {a b : List Char} :
    cutFrom? isCut p (a ++ b) = none ↔
      cutFrom? isCut p a = none ∧ cutFrom? isCut (p.after a) b = none := by
  induction a generalizing p with
  | nil => simp [cutFrom?, Place.after]
  | cons c cs ih =>
      rw [List.cons_append, cutFrom?_cons_eq_none, cutFrom?_cons_eq_none, ih, and_assoc]
      rfl

/-- **The first cut**: the text around it, and that nothing before it is cut. -/
theorem cutFrom?_split {cut : Cut} (h : cutFrom? isCut p text = some cut) :
    text = cut.before ++ cut.mark :: cut.after ∧ isCut cut.mark = true ∧
      (p.after cut.before).isTop cut.mark = true ∧ cutFrom? isCut p cut.before = none := by
  induction text generalizing p cut with
  | nil => cases h
  | cons c cs ih =>
      by_cases hcut : (p.isTop c && isCut c) = true
      · rw [cutFrom?, if_pos hcut] at h
        cases h
        obtain ⟨htop, hmark⟩ := Bool.and_eq_true_iff.mp hcut
        exact ⟨rfl, hmark, htop, rfl⟩
      · rw [cutFrom?, if_neg hcut, Option.map_eq_some_iff] at h
        obtain ⟨later, hlater, rfl⟩ := h
        obtain ⟨htext, hmark, htop, hbefore⟩ := ih hlater
        exact ⟨by rw [htext]; rfl, hmark, htop,
          cutFrom?_cons_eq_none.mpr ⟨Bool.not_eq_true _ ▸ hcut, hbefore⟩⟩

/-- What follows a cut at a flat character is read from the top again. -/
theorem cut?_after_eq_none {isMark : Char → Bool} {cut : Cut}
    (hflat : ∀ c, isMark c = true → isFlat c = true) (hcut : cut? isMark text = some cut)
    (h : cut? isCut text = none) : cut? isCut cut.after = none := by
  obtain ⟨htext, hmark, htop, -⟩ := cutFrom?_split hcut
  rw [htext] at h
  obtain ⟨-, hafter⟩ := cutFrom?_append_eq_none.mp h
  obtain ⟨-, hrest⟩ := cutFrom?_cons_eq_none.mp hafter
  rwa [Place.eq_top_of_isTop htop, Place.next_top (hflat _ hmark)] at hrest

theorem cut?_trim_eq_none (h : cut? isCut text = none) : cut? isCut (trim text) = none := by
  obtain ⟨lead, tail, hlead, -, htext⟩ := exists_trim text
  rw [htext] at h
  obtain ⟨-, hrest⟩ := cutFrom?_append_eq_none.mp h
  rw [Place.after_top fun c hc => isFlat_of_forall (by decide) (hlead c hc)] at hrest
  exact (cutFrom?_append_eq_none.mp hrest).1

/-! ### Pieces and entries -/

/-- **A piece between two cuts is cut nowhere**, and the pieces stand in the order of the text.
The first one is read from where the reader of the text starts. -/
theorem piecesFrom_split (separator : Char) (p : Place) (text : List Char) :
    ∃ first rest more, piecesFrom separator p text = first :: more ∧ text = first ++ rest ∧
      InOrder more rest ∧ cutFrom? (· == separator) p first = none ∧
      ∀ piece ∈ more, cut? (· == separator) piece = none := by
  induction text generalizing p with
  | nil => exact ⟨[], [], [], rfl, rfl, trivial, rfl, by simp⟩
  | cons c cs ih =>
      by_cases hcut : (p.isTop c && c == separator) = true
      · obtain ⟨first, rest, more, hpieces, hcs, horder, hfirst, hmore⟩ := ih .top
        refine ⟨[], c :: cs, first :: more, ?_, rfl, ?_, rfl, ?_⟩
        · rw [piecesFrom, if_pos hcut, hpieces]
        · rw [hcs]
          exact InOrder.cons [c] first horder
        · rintro piece (_ | ⟨_, hpiece⟩)
          · exact hfirst
          · exact hmore piece hpiece
      · obtain ⟨first, rest, more, hpieces, hcs, horder, hfirst, hmore⟩ := ih (p.next c)
        refine ⟨c :: first, rest, more, ?_, by rw [hcs]; rfl, horder, ?_, hmore⟩
        · rw [piecesFrom, if_neg hcut, hpieces]
        · exact cutFrom?_cons_eq_none.mpr ⟨Bool.not_eq_true _ ▸ hcut, hfirst⟩

theorem pieces_inOrder (separator : Char) (text : List Char) :
    InOrder (pieces separator text) text := by
  obtain ⟨first, rest, more, hpieces, htext, horder, -⟩ := piecesFrom_split separator .top text
  rw [pieces, hpieces, htext]
  exact (InOrder.singleton first).append horder

theorem cut?_of_mem_pieces {separator : Char} {piece : List Char}
    (h : piece ∈ pieces separator text) : cut? (· == separator) piece = none := by
  obtain ⟨first, rest, more, hpieces, -, -, hfirst, hmore⟩ := piecesFrom_split separator .top text
  rw [pieces, hpieces] at h
  rcases List.mem_cons.mp h with rfl | h
  · exact hfirst
  · exact hmore piece h

/-- An entry is trimmed and not empty, and it is cut nowhere. -/
theorem entry_of_mem_splitTopLevel {separator : Char} {entry : List Char}
    (h : entry ∈ splitTopLevel separator text) :
    entry ≠ [] ∧ trim entry = entry ∧ cut? (· == separator) entry = none := by
  obtain ⟨hmem, hvisible⟩ := List.mem_filter.mp h
  obtain ⟨piece, hpiece, rfl⟩ := List.mem_map.mp hmem
  exact ⟨by simpa using hvisible, trim_trim piece, cut?_trim_eq_none (cut?_of_mem_pieces hpiece)⟩

/-- **The entries stand in the text in their order.** -/
theorem splitTopLevel_inOrder (separator : Char) (text : List Char) :
    InOrder (splitTopLevel separator text) text := by
  have hentries : splitTopLevel separator text = (pieces separator text).flatMap fun piece =>
      [trim piece].filter fun entry => !entry.isEmpty := by
    rw [splitTopLevel, List.map_eq_flatMap, List.filter_flatMap]
  rw [hentries]
  refine (pieces_inOrder separator text).flatMap fun piece _ => ?_
  by_cases hempty : trim piece = []
  · simpa [hempty] using InOrder.nil piece
  · simpa [hempty] using (InOrder.singleton (trim piece)).within (infix_trim piece)

/-- A text that is trimmed, not empty and cut nowhere is its own only entry. -/
theorem splitTopLevel_eq_singleton {separator : Char} (hne : text ≠ []) (htrim : trim text = text)
    (h : cut? (· == separator) text = none) : splitTopLevel separator text = [text] := by
  rw [splitTopLevel_uncut h, htrim]
  simp [hne]

end UseCases.Dart
