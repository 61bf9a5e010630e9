/-
The two readers of literals.

The reader of comments and the reader of a declaration each have rules of their own for quotes and
escapes.  They are used one after the other: what the first one left of a line is cut where the
second one reads code.  So on a line that has no comments any more they have to mean the same.

That a text has no comments is seen from the text alone: it is what stripping leaves as it is.  A
comment costs its opening slash at the least, since that slash is held back until the character after
it is read and is then dropped with it, and a reader never keeps more than it has read.  And as long
as no comment opens and no line ends, one character takes both readers to the same literal state, so
they give out the same characters of code.
-/
import UseCases.Proofs.Dart.Offset
import UseCases.Proofs.Dart.StrippedText

namespace UseCases.Dart

open Text

variable {r : Region} {l : Literal} {c : Char} {cs text : List Char}

/-! ### Texts without comments -/

/-- A reader keeps no more than it has read and held back. -/
theorem length_keep_le (r : Region) (text : List Char) :
    (keep r text).length ≤ r.flush.length + text.length := by
  induction text generalizing r with
  | nil => rw [keep, List.length_nil, Nat.add_zero]
  | cons c cs ih =>
      obtain ⟨read, hread, hsublist⟩ := emit_sublist r c
      have hlength := congrArg List.length hread
      rw [List.length_append, List.length_append, List.length_singleton] at hlength
      have hemit := hsublist.length_le
      have hrest := ih (r.next c)
      rw [keep, List.length_append, List.length_cons]
      omega

/-- A comment opens at the second character of its marker. -/
theorem eq_slash_of_comment (h : r.literal? ≠ none) (hcomment : (r.next c).literal? = none) :
    r = .slash ∧ (c = '/' ∨ c = '*') := by
  have hcode : ∀ d, (Region.ofCode d).literal? ≠ none := by
    intro d
    rw [Region.ofCode]
    split
    · simp [Region.literal?]
    · split <;> simp [Region.literal?]
  cases r with
  | code => exact absurd hcomment (hcode c)
  | slash =>
      by_cases hslash : c = '/'
      · exact ⟨rfl, Or.inl hslash⟩
      · by_cases hstar : c = '*'
        · exact ⟨rfl, Or.inr hstar⟩
        · rw [Region.next, if_neg hslash, if_neg hstar] at hcomment
          exact absurd hcomment (hcode c)
  | literal q =>
      simp only [Region.next] at hcomment
      split at hcomment
      · cases hcomment
      · split at hcomment <;> cases hcomment
  | escape q => cases hcomment
  | lineComment => exact absurd rfl h
  | block outer => exact absurd rfl h
  | blockSlash outer => exact absurd rfl h
  | blockStar outer => exact absurd rfl h

theorem commentFree_of_keep (h : r.literal? ≠ none) (hkeep : keep r text = r.flush ++ text) :
    CommentFree r text := by
  induction text generalizing r with
  | nil => exact commentFree_nil h
  | cons c cs ih =>
      by_cases hcomment : (r.next c).literal? = none
      · -- The marker is dropped, so less is kept than was held back and read.
        exfalso
        obtain ⟨rfl, hmark⟩ := eq_slash_of_comment h hcomment
        have hrest := length_keep_le (Region.slash.next c) cs
        have hlength := congrArg List.length hkeep
        rw [keep, Region.emit, if_pos hmark] at hlength
        have hflush : (Region.slash.next c).flush = [] := by
          rcases hmark with rfl | rfl <;> rfl
        rw [hflush] at hrest
        simp only [List.nil_append, Region.flush, List.length_append, List.length_cons,
          List.length_nil] at hlength hrest
        omega
      · refine .cons h (ih hcomment ?_)
        have hemit := Region.emit_flush h hcomment
        rw [keep, List.append_cons, ← hemit, List.append_assoc] at hkeep
        exact List.append_cancel_left hkeep

/-- **Nothing is stripped from a text exactly if its reader is never in a comment.** -/
theorem stripComments_eq_self_iff : stripComments text = text ↔ CommentFree .code text :=
  ⟨fun h => commentFree_of_keep (by simp [Region.literal?]) h, fun h => keep_of_commentFree h⟩

/-! ### Characters of code -/

/-- The characters that the reader of comments reads outside comments and literals, in a text that
starts at `offset`, each with its own offset. -/
def Region.outsideFrom (offset : Nat) (r : Region) : List Char → List (Nat × Char)
  | [] => []
  | c :: cs =>
    let later := outsideFrom (offset + c.utf8Size) (r.next c) cs
    if r.literal? = some .outside then (offset, c) :: later else later

/-- The characters that the reader of comments reads outside comments and literals, opening quotes
included. -/
def outsideChars (text : List Char) : List (Nat × Char) :=
  Region.outsideFrom 0 .code text

/-- The reader of comments is inside a literal. -/
def Region.inLiteral : Region → Bool
  | .literal _ | .escape _ => true
  | .code | .slash | .lineComment | .block _ | .blockSlash _ | .blockStar _ => false

theorem inLiteral_iff (h : r.literal? = some l) : r.inLiteral = true ↔ l ≠ .outside := by
  cases r <;> cases h <;> simp [Region.inLiteral]

/-- Where no comment is, the two readers stay in the same literal state. -/
theorem CommentFree.literal?_next (h : CommentFree r (c :: cs)) (hl : r.literal? = some l)
    (hc : c ≠ '\n') : (r.next c).literal? = some (l.next c) := by
  refine Dart.literal?_next hl hc fun hslash => ?_
  have hnext := h [c] (List.prefix_append [c] cs)
  rw [Region.after_cons, Region.after_nil, hslash] at hnext
  constructor
  · rintro rfl
    exact hnext rfl
  · rintro rfl
    exact hnext rfl

/-- **The two readers read the same characters of code**, from a common literal state on. -/
theorem outsideFrom_eq (offset : Nat) (h : CommentFree r text) (hl : r.literal? = some l)
    (hnewline : '\n' ∉ text) :
    (r.outsideFrom offset text).filter (fun p => !isQuote p.2) = codeCharsFrom offset l text ∧
      (r.after text).literal? = some (l.after text) := by
  induction text generalizing offset r l with
  | nil => exact ⟨rfl, hl⟩
  | cons c cs ih =>
      obtain ⟨hc, hcs⟩ := not_or.mp (mt List.mem_cons.mpr hnewline)
      obtain ⟨hchars, hafter⟩ :=
        ih (offset + c.utf8Size) h.tail (h.literal?_next hl (Ne.symm hc)) hcs
      refine ⟨?_, hafter⟩
      rw [Region.outsideFrom, hl]
      cases l with
      | outside =>
          rw [if_pos rfl, List.filter_cons, hchars]
          rfl
      | inside q =>
          rw [if_neg (by simp), hchars]
          rfl
      | escaped q =>
          rw [if_neg (by simp), hchars]
          rfl

/--
**The two readers of literals agree** on every line from which no comment is stripped.  The characters
that the reader of comments reads outside literals, each with its offset, are the characters of code
of the other reader in the same order, once the opening quotes are left out; and the one ends inside
a literal exactly if the other does.
-/
theorem literal_readers_agree (hnewline : '\n' ∉ text) (hstrip : stripComments text = text) :
    (outsideChars text).filter (fun p => !isQuote p.2) = codeChars text ∧
      ((Region.code.after text).inLiteral = true ↔ Literal.outside.after text ≠ .outside) := by
  obtain ⟨hchars, hafter⟩ :=
    outsideFrom_eq 0 (stripComments_eq_self_iff.mp hstrip) (l := .outside) rfl hnewline
  exact ⟨hchars, inLiteral_iff hafter⟩

/-- A line on which a lone slash is code, markers stand inside literals, an escaped backslash lets its
quote close the literal, and an escaped quote leaves the last literal open. -/
def escapedLine : List Char :=
  "f('//\\\\', a / \"/* ' */\", 'é\\'".toList

theorem readers_agree_on_escapedLine :
    '\n' ∉ escapedLine ∧ stripComments escapedLine = escapedLine ∧
      (outsideChars escapedLine).filter (fun p => !isQuote p.2) = codeChars escapedLine ∧
      (Region.code.after escapedLine).inLiteral = true ∧
      Literal.outside.after escapedLine ≠ .outside := by
  have hnewline : '\n' ∉ escapedLine := by decide
  have hstrip : stripComments escapedLine = escapedLine := by decide
  obtain ⟨hchars, hends⟩ := literal_readers_agree hnewline hstrip
  have hopen : (Region.code.after escapedLine).inLiteral = true := by decide
  exact ⟨hnewline, hstrip, hchars, hopen, hends.mp hopen⟩

end UseCases.Dart
