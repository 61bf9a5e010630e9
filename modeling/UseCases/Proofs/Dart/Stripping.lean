/-
Stripping a text in parts.

What is kept of a text depends on what stands before it only through the region in which its
reader arrives.  So a text may be cut anywhere and its parts stripped one after the other, and
all that has to be known of the first part is where it leaves the reader.

A newline is kept in every region, together with a slash that was held back before it.  That
is why a cut after a newline is clean: nothing of the first part is left to be decided.
-/
import UseCases.Proofs.Dart.Comment

namespace UseCases.Dart

namespace Region

/-- What has been kept of a text when a reader who started in `r` stands at its end. -/
def kept (r : Region) : List Char → List Char
  | [] => []
  | c :: cs => r.emit c ++ kept (r.next c) cs

/-- A newline is kept wherever it stands, and a slash before it opened nothing. -/
theorem emit_newline (r : Region) : r.emit '\n' = r.flush ++ ['\n'] := by
  cases r <;> rfl

theorem count_emit (r : Region) (c : Char) :
    (r.emit c).count '\n' = if c = '\n' then 1 else 0 := by
  by_cases hc : c = '\n'
  · subst hc
    cases r <;> rfl
  · rw [if_neg hc, List.count_eq_zero]
    have hmem : ∀ d ∈ r.emit c, d = c ∨ d = '/' := by
      cases r <;> grind [emit]
    intro hnewline
    rcases hmem _ hnewline with hd | hd
    · exact hc hd.symm
    · exact absurd hd (by decide)

theorem count_flush (r : Region) : r.flush.count '\n' = 0 := by
  cases r <;> rfl

end Region

/-! ### Parts -/

/-- **A text is stripped part by part.**  The second part is read from where the first one left
the reader. -/
theorem keep_append (r : Region) (a b : List Char) :
    keep r (a ++ b) = r.kept a ++ keep (r.after a) b := by
  induction a generalizing r with
  | nil => rfl
  | cons c cs ih =>
      rw [List.cons_append, keep, ih, Region.kept, List.append_assoc, Region.after_cons]

theorem keep_eq_kept (r : Region) (a : List Char) : keep r a = r.kept a ++ (r.after a).flush := by
  have hwhole := keep_append r a []
  rwa [List.append_nil] at hwhole

/-- What stands before a newline is stripped as if the text ended there. -/
theorem keep_append_newline (r : Region) (a b : List Char) :
    keep r (a ++ '\n' :: b) = keep r a ++ '\n' :: keep (r.after (a ++ ['\n'])) b := by
  rw [keep_append, keep, Region.emit_newline, keep_eq_kept r a, Region.after_append]
  simp

/-- **A source is stripped in two parts** when its reader stands in code after the newline
between them. -/
theorem stripComments_append_newline {a : List Char}
    (h : Region.code.after (a ++ ['\n']) = .code) (b : List Char) :
    stripComments (a ++ '\n' :: b) = stripComments a ++ '\n' :: stripComments b := by
  rw [stripComments, keep_append_newline, h]
  rfl

/-! ### Newlines -/

theorem count_newline_keep (r : Region) (text : List Char) :
    (keep r text).count '\n' = text.count '\n' := by
  induction text generalizing r with
  | nil => exact r.count_flush
  | cons c cs ih =>
      rw [keep, List.count_append, ih, Region.count_emit, List.count_cons, Nat.add_comm]
      simp

/-- **Stripping keeps every newline**, so a source has as many lines without its comments as
with them. -/
theorem count_newline_stripComments (source : List Char) :
    (stripComments source).count '\n' = source.count '\n' :=
  count_newline_keep .code source

end UseCases.Dart
