/-
Texts that comments leave alone.

Stripping a text removes nothing as long as its reader never enters a comment.  That is a
property of every beginning of the text, `CommentFree`, and it is put together from the
parts of a text: `Settled` says of a part that it opens no comment and hands the next part
a reader that stands in code, or just after a slash.

A text in which every comment marker stands inside a literal is settled once its literals are
closed.  The argument runs the reader of comments and the reader of literals side by side:
on one line they agree about literals as long as no comment opens.
-/
import Mathlib.Tactic.Common
import UseCases.Dart.Literal
import UseCases.Proofs.Text.Scanning

namespace UseCases.Dart

open Text

/-- Where a text leaves a reader of literals. -/
def Literal.after (state : Literal) (text : List Char) : Literal :=
  text.foldl Literal.next state

namespace Region

/-- The literal state of a reader that is in no comment. -/
def literal? : Region → Option Literal
  | .code | .slash => some .outside
  | .literal q => some (.inside q)
  | .escape q => some (.escaped q)
  | .lineComment | .block _ | .blockSlash _ | .blockStar _ => none

theorem after_append (r : Region) (a b : List Char) : r.after (a ++ b) = (r.after a).after b :=
  List.foldl_append

@[simp] theorem after_nil (r : Region) : r.after [] = r := rfl

@[simp] theorem after_cons (r : Region) (c : Char) (cs : List Char) :
    r.after (c :: cs) = (r.next c).after cs := rfl

/-- After a character of a block comment the reader is in the comment, and may hold a half of a
marker. -/
theorem ofBlock_cases (outer : Nat) (c : Char) :
    ofBlock outer c = .block outer ∨ ofBlock outer c = .blockSlash outer ∨
      ofBlock outer c = .blockStar outer := by
  unfold ofBlock
  split
  · exact Or.inr (Or.inl rfl)
  · split
    · exact Or.inr (Or.inr rfl)
    · exact Or.inl rfl

theorem ofBlock_ne_slash (outer : Nat) (c : Char) : ofBlock outer c ≠ .slash := by
  intro h
  rcases ofBlock_cases outer c with h' | h' | h' <;> rw [h'] at h <;> cases h

/-- Outside comments every character is kept, a slash one character late. -/
theorem emit_flush {r : Region} {c : Char} (hr : r.literal? ≠ none)
    (hnext : (r.next c).literal? ≠ none) : r.emit c ++ (r.next c).flush = r.flush ++ [c] := by
  cases r with
  | code =>
      simp only [emit, next, ofCode]
      by_cases hslash : c = '/'
      · simp [hslash, flush]
      · by_cases hquote : isQuote c = true <;> simp [hslash, hquote, flush]
  | slash =>
      simp only [next] at hnext
      by_cases hslash : c = '/'
      · simp [hslash, literal?] at hnext
      · by_cases hstar : c = '*'
        · simp [hstar, literal?] at hnext
        · simp only [emit, next, ofCode, hslash, hstar, if_false, or_self]
          by_cases hquote : isQuote c = true <;> simp [hquote, flush]
  | literal q =>
      simp only [emit, next]
      split
      · rfl
      · split <;> rfl
  | escape q => rfl
  | lineComment => exact absurd rfl hr
  | block n => exact absurd rfl hr
  | blockSlash n => exact absurd rfl hr
  | blockStar n => exact absurd rfl hr

end Region

/-! ### Texts without comments -/

/-- Read from `r` on, the text is never in a comment. -/
def CommentFree (r : Region) (text : List Char) : Prop :=
  ∀ before, before <+: text → (r.after before).literal? ≠ none

theorem CommentFree.tail {r : Region} {c : Char} {cs : List Char} (h : CommentFree r (c :: cs)) :
    CommentFree (r.next c) cs := by
  intro before hbefore
  exact h (c :: before) ((List.cons_prefix_cons).mpr ⟨rfl, hbefore⟩)

theorem keep_of_commentFree {text : List Char} :
    ∀ {r : Region}, CommentFree r text → keep r text = r.flush ++ text := by
  induction text with
  | nil => intro r _; simp [keep]
  | cons c cs ih =>
      intro r h
      have hr : r.literal? ≠ none := h [] List.nil_prefix
      have hnext : (r.next c).literal? ≠ none := h [c] (List.prefix_append [c] cs)
      rw [keep, ih h.tail, ← List.append_assoc, Region.emit_flush hr hnext, List.append_assoc]
      rfl

theorem CommentFree.append {r : Region} {a b : List Char} (ha : CommentFree r a)
    (hb : CommentFree (r.after a) b) : CommentFree r (a ++ b) := by
  rintro before ⟨rest, hrest⟩
  rcases List.append_eq_append_iff.mp hrest with ⟨tail, hshort, -⟩ | ⟨tail, rfl, hlong⟩
  · exact ha before ⟨tail, hshort.symm⟩
  · rw [Region.after_append]
    exact hb tail ⟨rest, hlong.symm⟩

/-- The text opens no comment, and leaves a reader that started in code in code or just after
a slash. -/
structure Settled (text : List Char) : Prop where
  free : CommentFree .code text
  code : Region.code.after text = .code ∨ Region.code.after text = .slash

theorem settled_nil : Settled [] where
  free := by
    intro before hbefore
    rw [List.prefix_nil.mp hbefore]
    simp [Region.literal?]
  code := Or.inl rfl

/-- **Stripping a settled text leaves it as it is.** -/
theorem stripComments_of_settled {text : List Char} (h : Settled text) :
    stripComments text = text :=
  keep_of_commentFree h.free

/-- A slash that opened nothing is code again once another character was read. -/
theorem next_slash {c : Char} (hslash : c ≠ '/') (hstar : c ≠ '*') :
    Region.slash.next c = Region.code.next c := by
  simp [Region.next, hslash, hstar]

/-- What follows a settled text has to leave a slash at its end alone. -/
theorem Settled.append {a b : List Char} (ha : Settled a) (hb : Settled b)
    (hjoin : ∀ c, b.head? = some c → c ≠ '/' ∧ c ≠ '*') : Settled (a ++ b) := by
  cases b with
  | nil => simpa using ha
  | cons c cs =>
      have hsame : ∀ before, (Region.code.after a).after (c :: before)
          = Region.code.after (c :: before) := by
        intro before
        obtain ⟨hslash, hstar⟩ := hjoin c rfl
        rcases ha.code with hcode | hcode
        · rw [hcode]
        · rw [hcode, Region.after_cons, Region.after_cons, next_slash hslash hstar]
      refine ⟨ha.free.append fun before hbefore => ?_, ?_⟩
      · rcases List.prefix_cons_iff.mp hbefore with rfl | ⟨tail, rfl, htail⟩
        · exact ha.free a (List.prefix_refl a)
        · rw [hsame]
          exact hb.free (c :: tail) hbefore
      · rw [Region.after_append, hsame]
        exact hb.code

/-! ### Plain characters -/

/-- A character that is no slash and no quote. -/
def isPlain (c : Char) : Bool :=
  c != '/' && !isQuote c

theorem isPlain_iff {c : Char} : isPlain c = true ↔ c ≠ '/' ∧ isQuote c = false := by
  simp [isPlain]

theorem next_code_of_isPlain {c : Char} (h : isPlain c = true) : Region.code.next c = .code := by
  obtain ⟨hslash, hquote⟩ := isPlain_iff.mp h
  simp [Region.next, Region.ofCode, hslash, hquote]

theorem after_plain {text : List Char} (h : ∀ c ∈ text, isPlain c = true) :
    Region.code.after text = .code := by
  induction text with
  | nil => rfl
  | cons c cs ih =>
      rw [Region.after_cons, next_code_of_isPlain (h c List.mem_cons_self)]
      exact ih fun d hd => h d (List.mem_cons_of_mem c hd)

theorem commentFree_plain {text : List Char} (h : ∀ c ∈ text, isPlain c = true) :
    CommentFree .code text := by
  intro before hbefore
  rw [after_plain fun c hc => h c (hbefore.subset hc)]
  simp [Region.literal?]

theorem settled_plain {text : List Char} (h : ∀ c ∈ text, isPlain c = true) : Settled text :=
  ⟨commentFree_plain h, Or.inl (after_plain h)⟩

/-- After plain text the reader is in code, so anything settled may follow. -/
theorem Settled.plain_append {a b : List Char} (ha : ∀ c ∈ a, isPlain c = true) (hb : Settled b) :
    Settled (a ++ b) := by
  refine ⟨(commentFree_plain ha).append ?_, ?_⟩
  · rw [after_plain ha]
    exact hb.free
  · rw [Region.after_append, after_plain ha]
    exact hb.code

/-! ### Literals -/

theorem after_literal {q : Char} {body : List Char}
    (h : ∀ c ∈ body, c ≠ q ∧ c ≠ '\\' ∧ c ≠ '\n') : (Region.literal q).after body = .literal q := by
  induction body with
  | nil => rfl
  | cons c cs ih =>
      obtain ⟨hquote, hescape, hnewline⟩ := h c List.mem_cons_self
      rw [Region.after_cons]
      have hnext : (Region.literal q).next c = .literal q := by
        simp [Region.next, hquote, hescape, hnewline]
      rw [hnext]
      exact ih fun d hd => h d (List.mem_cons_of_mem c hd)

/-- A literal without escapes, whatever comment markers it contains. -/
theorem settled_literal {q : Char} {body : List Char} (hq : isQuote q = true)
    (h : ∀ c ∈ body, c ≠ q ∧ c ≠ '\\' ∧ c ≠ '\n') : Settled (q :: (body ++ [q])) := by
  have hslash : q ≠ '/' := by
    rintro rfl
    exact absurd hq (by decide)
  have hescape : q ≠ '\\' := by
    rintro rfl
    exact absurd hq (by decide)
  have hopen : Region.code.next q = .literal q := by
    simp [Region.next, Region.ofCode, hslash, hq]
  have hclose : (Region.literal q).next q = .code := by
    simp [Region.next, hescape]
  have hcode : Region.code.after (q :: (body ++ [q])) = .code := by
    rw [Region.after_cons, hopen, Region.after_append, after_literal h, Region.after_cons, hclose]
    rfl
  refine ⟨fun before hbefore => ?_, Or.inl hcode⟩
  rcases List.prefix_cons_iff.mp hbefore with rfl | ⟨tail, rfl, htail⟩
  · simp [Region.literal?]
  · rw [Region.after_cons, hopen]
    rcases List.prefix_concat_iff.mp htail with rfl | hshort
    · rw [Region.after_append, after_literal h, Region.after_cons, hclose]
      simp [Region.literal?]
    · rw [after_literal fun c hc => h c (hshort.subset hc)]
      simp [Region.literal?]

/-! ### Rows -/

theorem settled_rowsText {rows : List String} (h : ∀ row ∈ rows, Settled row.toList) :
    Settled (rowsText rows) := by
  induction rows with
  | nil => exact settled_nil
  | cons row rest ih =>
      rw [rowsText_cons]
      have hrest := ih fun r hr => h r (List.mem_cons_of_mem row hr)
      have hnewline : Settled ('\n' :: rowsText rest) :=
        Settled.plain_append (a := ['\n']) (by simp [isPlain, isQuote]) hrest
      exact (h row List.mem_cons_self).append hnewline (by rintro c ⟨rfl⟩; decide)

/-! ### Comment markers inside literals -/

/-- A slash or a star, which opens a comment after a slash. -/
def isMark (c : Char) : Bool :=
  c == '/' || c == '*'

/-- Every comment marker of the text stands inside a literal. -/
def isUncommented (state : Literal) : List Char → Bool
  | [] => true
  | c :: cs =>
    !(state == .outside && c == '/' && cs.head?.any isMark) && isUncommented (state.next c) cs

/-- One character keeps the two readers in step, if it opens no comment and ends no line. -/
theorem literal?_next {r : Region} {l : Literal} {c : Char} (h : r.literal? = some l)
    (hnewline : c ≠ '\n') (hopen : r = .slash → c ≠ '/' ∧ c ≠ '*') :
    (r.next c).literal? = some (l.next c) := by
  have hcode : (Region.ofCode c).literal? = some (Literal.outside.next c) := by
    simp only [Region.ofCode, Literal.next]
    by_cases hslash : c = '/'
    · simp [hslash, Region.literal?, isQuote]
    · simp only [hslash, if_false]
      split <;> rfl
  cases r with
  | code => cases h; exact hcode
  | slash =>
      cases h
      obtain ⟨hslash, hstar⟩ := hopen rfl
      simp only [Region.next, hslash, hstar, if_false]
      exact hcode
  | literal q =>
      cases h
      simp only [Region.next, Literal.next, hnewline, or_false]
      split
      · rfl
      · split <;> rfl
  | escape q => cases h; rfl
  | lineComment => cases h
  | block n => cases h
  | blockSlash n => cases h
  | blockStar n => cases h

/-- A reader that stands just after a slash has just read one, and was in code before. -/
theorem next_eq_slash {r : Region} {c : Char} (h : r.next c = .slash) :
    c = '/' ∧ (r = .code ∨ r = .slash) := by
  cases r with
  | code =>
      simp only [Region.next, Region.ofCode] at h
      by_cases hslash : c = '/'
      · exact ⟨hslash, Or.inl rfl⟩
      · rw [if_neg hslash] at h
        split at h <;> cases h
  | slash =>
      simp only [Region.next, Region.ofCode] at h
      by_cases hslash : c = '/'
      · exact ⟨hslash, Or.inr rfl⟩
      · rw [if_neg hslash, if_neg hslash] at h
        split at h
        · cases h
        · split at h <;> cases h
  | literal q =>
      simp only [Region.next] at h
      split at h
      · cases h
      · split at h <;> cases h
  | escape q => cases h
  | lineComment =>
      simp only [Region.next] at h
      split at h <;> cases h
  | block n => exact absurd h (Region.ofBlock_ne_slash n c)
  | blockSlash n =>
      simp only [Region.next] at h
      split at h
      · cases h
      · exact absurd h (Region.ofBlock_ne_slash n c)
  | blockStar n =>
      simp only [Region.next] at h
      split at h
      · cases n <;> cases h
      · exact absurd h (Region.ofBlock_ne_slash n c)

/-- The two readers agree on every beginning of an uncommented line. -/
theorem literal?_after {text : List Char} {r : Region} {l : Literal} (hagree : r.literal? = some l)
    (hopen : r = .slash → text.head?.any isMark = false) (hnewline : '\n' ∉ text)
    (h : isUncommented l text = true) :
    ∀ before, before <+: text → (r.after before).literal? = some (l.after before) := by
  induction text generalizing r l with
  | nil =>
      intro before hbefore
      rw [List.prefix_nil.mp hbefore]
      exact hagree
  | cons c cs ih =>
      intro before hbefore
      rcases List.prefix_cons_iff.mp hbefore with rfl | ⟨tail, rfl, htail⟩
      · exact hagree
      · simp only [isUncommented, Bool.and_eq_true, Bool.not_eq_true'] at h
        obtain ⟨hmark, hrest⟩ := h
        have hc : c ≠ '\n' := by
          rintro rfl
          exact hnewline List.mem_cons_self
        have hfirst : r = .slash → c ≠ '/' ∧ c ≠ '*' := by
          intro hslash
          simpa [isMark] using hopen hslash
        refine ih (literal?_next hagree hc hfirst) (fun hslash => ?_)
          (fun hmem => hnewline (List.mem_cons_of_mem c hmem)) hrest tail htail
        -- The reader was in code before this slash, so the line has no marker here.
        obtain ⟨rfl, hcode⟩ := next_eq_slash hslash
        have houtside : l = .outside := by
          rcases hcode with rfl | rfl <;> exact (Option.some.inj hagree).symm
        simpa [houtside] using hmark

/-- **A line whose comment markers stand in literals, and whose literals are closed, is
settled.** -/
theorem settled_of_uncommented {text : List Char} (hnewline : '\n' ∉ text)
    (h : isUncommented .outside text = true) (hclosed : Literal.outside.after text = .outside) :
    Settled text := by
  have hagree := literal?_after (r := .code) rfl (fun hcode => by cases hcode) hnewline h
  refine ⟨fun before hbefore => ?_, ?_⟩
  · rw [hagree before hbefore]
    simp
  · have hend := hagree text (List.prefix_refl text)
    rw [hclosed] at hend
    cases hregion : Region.code.after text <;> rw [hregion] at hend <;>
      first
        | exact Or.inl rfl
        | exact Or.inr rfl
        | cases hend

end UseCases.Dart
