/-
How deep a text leaves its reader.

The readers of a declaration keep one count for all brackets, and a closing bracket leaves a count
of zero where it is.  So the count after a text is not the number of brackets opened less the
number closed: a stray closing bracket takes nothing from those after it, but it does take one from
those before it, whatever their kind.

In closed form, the count is the largest surplus of opening over closing brackets in any end of the
text.  What matters to a cut is only whether it is zero, and that is what `LeavesOpen` says: some
end of the text opens more brackets than it closes.
-/
import UseCases.Proofs.Dart.Cut

namespace UseCases.Dart

open Text

variable {l : Literal} {c : Char} {text cs : List Char}

/-! ### Counting brackets -/

theorem isClosing_of_isOpening (h : isOpening c = true) : isClosing c = false := by
  rcases cases_of_isOpening h with rfl | rfl | rfl | rfl <;> rfl

/-- How many characters of code in a text that is read from `l` on are of the class. -/
def classCount (p : Char → Bool) (l : Literal) (text : List Char) : Nat :=
  (markCode l text).countP fun m => m.2 && p m.1

theorem classCount_nil (p : Char → Bool) (l : Literal) : classCount p l [] = 0 := rfl

theorem classCount_cons (p : Char → Bool) (l : Literal) (c : Char) (cs : List Char) :
    classCount p l (c :: cs)
      = (if l.isCode c = true ∧ p c = true then 1 else 0) + classCount p (l.next c) cs := by
  rw [classCount, markCode, List.countP_cons, Nat.add_comm, classCount]
  simp

theorem classCount_code {p : Char → Bool} (hcode : l.isCode c = true) :
    classCount p l (c :: cs) = (if p c = true then 1 else 0) + classCount p .outside cs := by
  rw [classCount_cons, next_of_isCode hcode]
  simp [hcode]

theorem classCount_text {p : Char → Bool} (hcode : l.isCode c = false) :
    classCount p l (c :: cs) = classCount p (l.next c) cs := by
  rw [classCount_cons]
  simp [hcode]

/-! ### Ends of a text -/

/-- **The text leaves a bracket open**: some end of it opens more brackets than it closes. -/
def LeavesOpen (l : Literal) (text : List Char) : Prop :=
  ∃ before rest, text = before ++ rest ∧
    classCount isClosing (l.after before) rest < classCount isOpening (l.after before) rest

theorem not_leavesOpen_nil (l : Literal) : ¬LeavesOpen l [] := by
  rintro ⟨before, rest, htext, hcount⟩
  obtain ⟨-, rfl⟩ := List.append_eq_nil_iff.mp htext.symm
  exact Nat.lt_irrefl 0 hcount

/-- An end of a text is the whole text or an end of what follows its first character. -/
theorem leavesOpen_cons :
    LeavesOpen l (c :: cs) ↔
      classCount isClosing l (c :: cs) < classCount isOpening l (c :: cs) ∨
        LeavesOpen (l.next c) cs := by
  constructor
  · rintro ⟨before, rest, htext, hcount⟩
    cases before with
    | nil =>
        obtain rfl : c :: cs = rest := htext
        exact Or.inl hcount
    | cons d ds =>
        obtain ⟨rfl, rfl⟩ := List.cons_eq_cons.mp htext
        exact Or.inr ⟨ds, rest, rfl, hcount⟩
  · rintro (hcount | ⟨before, rest, rfl, hcount⟩)
    · exact ⟨[], c :: cs, rfl, hcount⟩
    · exact ⟨c :: before, rest, rfl, hcount⟩

/-- The whole of a text is one of its ends. -/
theorem leavesOpen_of_lt (h : classCount isClosing l text < classCount isOpening l text) :
    LeavesOpen l text :=
  ⟨[], text, rfl, h⟩

/-! ### The count of the reader -/

theorem Literal.after_append (l : Literal) (a b : List Char) :
    l.after (a ++ b) = (l.after a).after b :=
  List.foldl_append

theorem Place.after_append (p : Place) (a b : List Char) :
    p.after (a ++ b) = (p.after a).after b :=
  List.foldl_append

theorem Place.after_literal (p : Place) (text : List Char) :
    (p.after text).literal = p.literal.after text := by
  induction text generalizing p with
  | nil => rfl
  | cons c cs ih => exact ih (p.next c)

theorem Place.after_code {n : Nat} (hcode : l.isCode c = true) :
    (Place.mk l n).after (c :: cs) = (Place.mk .outside (Place.deepen n c)).after cs := by
  rw [Place.after, List.foldl_cons, Place.next_code hcode]
  rfl

theorem Place.after_text {n : Nat} (hcode : l.isCode c = false) :
    (Place.mk l n).after (c :: cs) = (Place.mk (l.next c) n).after cs := by
  rw [Place.after, List.foldl_cons, Place.next_text hcode]
  rfl

/-- A character of code changes the count by the bracket that it is. -/
theorem deepen_cases (n : Nat) (c : Char) :
    (isOpening c = true ∧ isClosing c = false ∧ Place.deepen n c = n + 1) ∨
      (isOpening c = false ∧ isClosing c = true ∧ Place.deepen n c = n - 1) ∨
      (isOpening c = false ∧ isClosing c = false ∧ Place.deepen n c = n) := by
  unfold Place.deepen
  by_cases hopening : isOpening c = true
  · exact Or.inl ⟨hopening, isClosing_of_isOpening hopening, if_pos hopening⟩
  · rw [if_neg hopening]
    rw [Bool.not_eq_true] at hopening
    by_cases hclosing : isClosing c = true
    · exact Or.inr (Or.inl ⟨hopening, hclosing, if_pos hclosing⟩)
    · rw [if_neg hclosing]
      exact Or.inr (Or.inr ⟨hopening, by simpa using hclosing, rfl⟩)

/-- **A reader that starts `n` brackets deep ends inside a bracket** if and only if the text does
not close all of them, or an end of it leaves one open. -/
theorem depth_after_pos {n : Nat} :
    0 < ((Place.mk l n).after text).depth ↔
      classCount isClosing l text < n + classCount isOpening l text ∨ LeavesOpen l text := by
  induction text generalizing l n with
  | nil =>
      have hnone := not_leavesOpen_nil l
      simp only [classCount_nil, hnone, or_false, Nat.add_zero]
      rfl
  | cons c cs ih =>
      rw [leavesOpen_cons]
      by_cases hcode : l.isCode c = true
      · rw [Place.after_code hcode, ih, classCount_code hcode, classCount_code hcode,
          next_of_isCode hcode]
        -- At depth zero a closing bracket is lost, and what is left is an end of the text.
        have hwhole : classCount isClosing .outside cs < classCount isOpening .outside cs →
            LeavesOpen .outside cs := leavesOpen_of_lt
        rcases deepen_cases n c with ⟨ho, hc, hn⟩ | ⟨ho, hc, hn⟩ | ⟨ho, hc, hn⟩
        all_goals
          rw [hn, ho, hc]
          simp only [if_true, Bool.false_eq_true, if_false]
          by_cases hrest : LeavesOpen .outside cs
          · simp [hrest]
          · have hle := mt hwhole hrest
            simp only [hrest, or_false]
            omega
      · rw [Bool.not_eq_true] at hcode
        rw [Place.after_text hcode, ih, classCount_text hcode, classCount_text hcode]
        have hwhole : classCount isClosing (l.next c) cs < classCount isOpening (l.next c) cs →
            LeavesOpen (l.next c) cs := leavesOpen_of_lt
        by_cases hrest : LeavesOpen (l.next c) cs
        · simp [hrest]
        · have hle := mt hwhole hrest
          simp only [hrest, or_false]
          omega

/-- A reader that starts at the top ends inside a bracket if and only if the text leaves one
open. -/
theorem depth_after_top_pos : 0 < (Place.top.after text).depth ↔ LeavesOpen .outside text := by
  refine depth_after_pos.trans ⟨?_, Or.inr⟩
  rintro (hcount | hopen)
  · exact leavesOpen_of_lt (by omega)
  · exact hopen

/-- Whether a text leaves a bracket open can be computed by reading it. -/
instance (text : List Char) : Decidable (LeavesOpen .outside text) :=
  decidable_of_iff _ depth_after_top_pos

/-- **After which texts a character stands at the top**: those that leave no literal and no bracket
open. -/
theorem isTop_after_iff (hquote : isQuote c = false) :
    (Place.top.after text).isTop c = true ↔
      Literal.outside.after text = .outside ∧ ¬LeavesOpen .outside text := by
  rw [← depth_after_top_pos, Place.isTop, Bool.and_eq_true, isCode_iff, Place.after_literal,
    beq_iff_eq, Nat.not_lt, Nat.le_zero]
  simp [hquote, Place.top]

end UseCases.Dart
