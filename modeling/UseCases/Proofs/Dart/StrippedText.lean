/-
Text without its comments.

A second reader, run over what the first one keeps, is never in a comment.  The two walk side by
side: when the first one stands in a literal, so does the second, and when it stands in code, in a
comment, or just after a slash that is still held back, the second one stands in code.  A slash is
kept only together with the character after it, which is neither a slash nor a star, and so nothing
that is kept of a text opens a comment, however much was taken out between two characters.

Of one line of the source a part of that line is kept and no newline, and a newline is kept
wherever it stands.  So the lines of the two texts correspond.
-/
import Mathlib.Data.List.Forall2
import UseCases.Proofs.Dart.Stripping

namespace UseCases.Dart

open Text

variable {r : Region} {c : Char} {text : List Char}

/-! ### A second reader -/

namespace Region

/-- Where a reader of what is kept stands, when the reader of the source stands in a region. -/
def shown : Region → Region
  | .literal q => .literal q
  | .escape q => .escape q
  | .code | .slash | .lineComment | .block _ | .blockSlash _ | .blockStar _ => .code

theorem shown_free (r : Region) : r.shown.literal? ≠ none := by
  cases r <;> simp [shown, literal?]

theorem shown_ofBlock (outer : Nat) (c : Char) : (ofBlock outer c).shown = .code := by
  rcases ofBlock_cases outer c with h | h | h <;> rw [h] <;> rfl

theorem shown_outside (outer : Nat) : (outside outer).shown = .code := by
  cases outer <;> rfl

/-- A newline leaves a reader in code there. -/
theorem after_kept_newline (c : Char) :
    Region.code.after (if c = '\n' then [c] else []) = .code := by
  split
  · rename_i hc
    rw [hc]
    rfl
  · rfl

/-- A character of code that opens no comment is read alike by both readers. -/
theorem shown_ofCode (hslash : c ≠ '/') : (ofCode c).shown = ofCode c := by
  unfold ofCode
  rw [if_neg hslash]
  split <;> rfl

/-- **The two readers stay side by side** when one more character is read. -/
theorem shown_next (r : Region) (c : Char) : r.shown.after (r.emit c) = (r.next c).shown := by
  cases r with
  | code =>
      by_cases hslash : c = '/'
      · rw [hslash]
        rfl
      · rw [emit, if_neg hslash, next, shown_ofCode hslash]
        rfl
  | slash =>
      by_cases hslash : c = '/'
      · rw [hslash]
        rfl
      · by_cases hstar : c = '*'
        · rw [hstar]
          rfl
        · rw [emit, if_neg (by tauto), next, if_neg hslash, if_neg hstar, shown_ofCode hslash]
          show (slash.next c) = ofCode c
          rw [next, if_neg hslash, if_neg hstar]
  | literal q =>
      show (literal q).next c = ((literal q).next c).shown
      simp only [next]
      split
      · rfl
      · split <;> rfl
  | escape q => rfl
  | lineComment =>
      refine (after_kept_newline c).trans ?_
      rw [next]
      split <;> rfl
  | block outer => exact (after_kept_newline c).trans (shown_ofBlock outer c).symm
  | blockSlash outer =>
      refine (after_kept_newline c).trans ?_
      rw [next]
      split
      · rfl
      · exact (shown_ofBlock outer c).symm
  | blockStar outer =>
      refine (after_kept_newline c).trans ?_
      rw [next]
      split
      · exact (shown_outside outer).symm
      · exact (shown_ofBlock outer c).symm

end Region

theorem commentFree_nil (h : r.literal? ≠ none) : CommentFree r [] := by
  intro before hbefore
  rwa [List.prefix_nil.mp hbefore]

theorem CommentFree.cons (h : r.literal? ≠ none) (htext : CommentFree (r.next c) text) :
    CommentFree r (c :: text) := by
  intro before hbefore
  rcases List.prefix_cons_iff.mp hbefore with rfl | ⟨tail, rfl, htail⟩
  · exact h
  · exact htext tail htail

/-- When a character is read, nothing is kept, or that character, or a slash before it too. -/
theorem emit_cases (r : Region) (c : Char) :
    r.emit c = [] ∨ r.emit c = [c] ∨ r = .slash ∧ r.emit c = ['/', c] := by
  cases r with
  | slash =>
      rw [Region.emit]
      split
      · exact Or.inl rfl
      · exact Or.inr (Or.inr ⟨rfl, rfl⟩)
  | literal q => exact Or.inr (Or.inl rfl)
  | escape q => exact Or.inr (Or.inl rfl)
  | code =>
      rw [Region.emit]
      split
      · exact Or.inl rfl
      · exact Or.inr (Or.inl rfl)
  | lineComment | block | blockSlash | blockStar =>
      rw [Region.emit]
      split
      · exact Or.inr (Or.inl rfl)
      · exact Or.inl rfl

/-- What is kept when one character is read opens no comment. -/
theorem commentFree_emit (r : Region) (c : Char) : CommentFree r.shown (r.emit c) := by
  have hnext := (r.next c).shown_free
  rw [← Region.shown_next] at hnext
  rcases emit_cases r c with hemit | hemit | ⟨rfl, hemit⟩ <;> rw [hemit] at hnext ⊢
  · exact commentFree_nil r.shown_free
  · exact .cons r.shown_free (commentFree_nil hnext)
  · -- The slash and then the character, which are both read in code.
    exact .cons (by simp [Region.shown, Region.literal?])
      (.cons (by simp [Region.shown, Region.next, Region.ofCode, Region.literal?])
        (commentFree_nil hnext))

/-- **What is kept of a text is in no comment.** -/
theorem commentFree_keep (r : Region) (text : List Char) : CommentFree r.shown (keep r text) := by
  induction text generalizing r with
  | nil =>
      have hslash : CommentFree .code ['/'] :=
        .cons (by simp [Region.literal?])
          (commentFree_nil (by simp [Region.next, Region.ofCode, Region.literal?]))
      cases r <;>
        first
          | exact hslash
          | exact commentFree_nil (Region.shown_free _)
  | cons c cs ih =>
      refine (commentFree_emit r c).append ?_
      rw [Region.shown_next]
      exact ih (r.next c)

/-- **A stripped text has nothing to strip.** -/
theorem stripComments_stripComments (text : List Char) :
    stripComments (stripComments text) = stripComments text :=
  keep_of_commentFree (commentFree_keep .code text)

/-! ### Lines -/

theorem newline_notMem_flush (r : Region) : '\n' ∉ r.flush :=
  List.count_eq_zero.mp r.count_flush

/-- Only a slash of code is held back. -/
theorem flush_next (r : Region) (c : Char) :
    (r.next c).flush = [] ∨ r = .code ∧ c = '/' := by
  by_cases hnext : r.next c = .slash
  · obtain ⟨rfl, rfl | rfl⟩ := next_eq_slash hnext
    · exact Or.inr ⟨rfl, rfl⟩
    · cases hnext
  · refine Or.inl ?_
    cases hregion : r.next c <;>
      first
        | rfl
        | exact absurd hregion hnext

/-- Of a character and of what was held back before it, a part is kept and a part held back. -/
theorem emit_sublist (r : Region) (c : Char) :
    ∃ read, r.flush ++ [c] = read ++ (r.next c).flush ∧ (r.emit c).Sublist read := by
  rcases flush_next r c with hflush | ⟨rfl, rfl⟩
  · refine ⟨r.flush ++ [c], by rw [hflush, List.append_nil], ?_⟩
    rcases emit_cases r c with hemit | hemit | ⟨rfl, hemit⟩ <;> rw [hemit]
    · exact List.nil_sublist _
    · exact List.sublist_append_right r.flush [c]
    · exact List.Sublist.refl _
  · exact ⟨[], rfl, List.Sublist.refl []⟩

/-- Text without newlines goes to the first line of the text after it. -/
theorem lines_append_left {a : List Char} (h : '\n' ∉ a) (b : List Char) :
    ∃ first rest, lines b = first :: rest ∧ lines (a ++ b) = (a ++ first) :: rest := by
  induction a with
  | nil =>
      obtain ⟨first, rest, hlines⟩ := List.exists_cons_of_ne_nil (splitAt_ne_nil (· == '\n') b)
      exact ⟨first, rest, hlines, hlines⟩
  | cons c cs ih =>
      obtain ⟨hc, hcs⟩ := not_or.mp (mt List.mem_cons.mpr h)
      obtain ⟨first, rest, hb, hlines⟩ := ih hcs
      refine ⟨first, rest, hb, ?_⟩
      rw [lines] at hlines
      rw [List.cons_append, lines, splitAt, hlines]
      simp [Ne.symm hc]

theorem forall₂_lines_append {a b : List Char} (hsublist : b.Sublist a) (ha : '\n' ∉ a)
    {text kept : List Char} (h : List.Forall₂ List.Sublist (lines kept) (lines text)) :
    List.Forall₂ List.Sublist (lines (b ++ kept)) (lines (a ++ text)) := by
  obtain ⟨first, rest, htext, htexts⟩ := lines_append_left ha text
  obtain ⟨first', rest', hkept, hkepts⟩ :=
    lines_append_left (fun hmem => ha (hsublist.subset hmem)) kept
  rw [htext, hkept, List.forall₂_cons] at h
  rw [htexts, hkepts, List.forall₂_cons]
  exact ⟨hsublist.append h.1, h.2⟩

/-- **The lines correspond**, a slash that is held back counting as text still to be read. -/
theorem lines_keep (r : Region) (text : List Char) :
    List.Forall₂ List.Sublist (lines (keep r text)) (lines (r.flush ++ text)) := by
  have hsame : ∀ ls : List (List Char), List.Forall₂ List.Sublist ls ls :=
    fun ls => List.forall₂_same.mpr fun line _ => List.Sublist.refl line
  induction text generalizing r with
  | nil =>
      rw [List.append_nil]
      exact hsame _
  | cons c cs ih =>
      by_cases hc : c = '\n'
      · subst hc
        have hflush : (r.next '\n').flush = [] := by
          rcases flush_next r '\n' with hflush | ⟨-, hslash⟩
          · exact hflush
          · exact absurd hslash (by decide)
        have hrest := ih (r.next '\n')
        rw [hflush, List.nil_append] at hrest
        rw [keep, Region.emit_newline, List.append_assoc, List.singleton_append, lines_append,
          lines_append]
        exact List.rel_append (hsame _) hrest
      · obtain ⟨read, hread, hsublist⟩ := emit_sublist r c
        have hnewline : '\n' ∉ read := by
          intro hmem
          have hboth : '\n' ∈ r.flush ++ [c] := hread ▸ List.mem_append_left _ hmem
          rcases List.mem_append.mp hboth with hheld | hlast
          · exact newline_notMem_flush r hheld
          · exact hc (List.mem_singleton.mp hlast).symm
        rw [keep, List.append_cons, hread, List.append_assoc]
        exact forall₂_lines_append hsublist hnewline (ih (r.next c))

/-- **Stripping keeps every line in its place**: of each line a part is left, and nothing moves to
another line. -/
theorem lines_stripComments (text : List Char) :
    List.Forall₂ List.Sublist (lines (stripComments text)) (lines text) :=
  lines_keep .code text

end UseCases.Dart
