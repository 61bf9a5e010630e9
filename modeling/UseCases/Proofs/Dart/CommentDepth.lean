/-
The depth of block comments.

A reader that looks one character ahead needs no states for the half of a marker, and it may count
the block comments that are open from one on, so that zero stands for none.  Such a reader is given
here with its only decrement checked, at the end of a block comment.

It is compared with the reader that remembers half a marker.  The two stand in the same region
between two markers, and the depth is one more than the number of outer comments; where a `/` or `*`
is not half of a marker, the reader that remembers it goes on as if it did not.  So the depth is
never zero inside a block comment, and both keep the same of every text.
-/
import UseCases.Proofs.Dart.BlockComment
import UseCases.Proofs.Text.Slice

namespace UseCases.Dart

open Text

/-- Where a reader that looks ahead stands between two markers. -/
inductive Scan where
  | code
  /-- Inside a literal that `quote` closes. -/
  | literal (quote : Char)
  | lineComment
  /-- Inside block comments, `depth` of which are open. -/
  | block (depth : Nat)
deriving Repr, DecidableEq

namespace Scan

/-- The region in which the reader stands. -/
def region : Scan → Region
  | .code => .code
  | .literal quote => .literal quote
  | .lineComment => .lineComment
  | .block depth => .block (depth - 1)

/-- A reader inside block comments knows of one. -/
def IsDeep : Scan → Prop
  | .block depth => 1 ≤ depth
  | _ => True

end Scan

/-- What is kept of a text that is read from `scan` on. -/
def stripFrom : Scan → List Char → Except Fault (List Char)
  | _, [] => return []
  | .code, '/' :: '/' :: cs => stripFrom .lineComment cs
  | .code, '/' :: '*' :: cs => stripFrom (.block 1) cs
  | .code, c :: cs => do
    let rest ← stripFrom (if isQuote c then .literal c else .code) cs
    return c :: rest
  | .literal _, ['\\'] => return ['\\']
  | .literal quote, '\\' :: c :: cs => do
    let rest ← stripFrom (.literal quote) cs
    return '\\' :: c :: rest
  | .literal quote, c :: cs => do
    let rest ← stripFrom (if c = quote ∨ c = '\n' then .code else .literal quote) cs
    return c :: rest
  | .lineComment, '\n' :: cs => do
    let rest ← stripFrom .code cs
    return '\n' :: rest
  | .lineComment, _ :: cs => stripFrom .lineComment cs
  | .block depth, '*' :: '/' :: cs =>
    if depth = 1 then stripFrom .code cs
    else do
      let outer ← checkedSub depth 1
      stripFrom (.block outer) cs
  | .block depth, '/' :: '*' :: cs => stripFrom (.block (depth + 1)) cs
  | .block depth, '\n' :: cs => do
    let rest ← stripFrom (.block depth) cs
    return '\n' :: rest
  | .block depth, _ :: cs => stripFrom (.block depth) cs

/-! ### Half a marker -/

/-- A slash that opens no comment is kept. -/
theorem keep_slash {text : List Char} (hline : ¬['/'] <+: text) (hblock : ¬['*'] <+: text) :
    keep .slash text = '/' :: keep .code text := by
  cases text with
  | nil => rfl
  | cons c cs =>
      have hslash : c ≠ '/' := by simpa [eq_comm] using hline
      have hstar : c ≠ '*' := by simpa [eq_comm] using hblock
      simp [keep, Region.emit, Region.next, hslash, hstar]

/-- In a block comment a character at which no marker starts is forgotten. -/
theorem keep_ofBlock {c : Char} {text : List Char} (hopen : ¬['/', '*'] <+: c :: text)
    (hclose : ¬['*', '/'] <+: c :: text) (outer : Nat) :
    keep (Region.ofBlock outer c) text = keep (.block outer) text := by
  cases text with
  | nil => rcases Region.ofBlock_cases outer c with h | h | h <;> rw [h] <;> rfl
  | cons d ds =>
      have hopening : ¬(c = '/' ∧ d = '*') := by
        rintro ⟨rfl, rfl⟩
        exact hopen (List.prefix_append ['/', '*'] ds)
      have hclosing : ¬(c = '*' ∧ d = '/') := by
        rintro ⟨rfl, rfl⟩
        exact hclose (List.prefix_append ['*', '/'] ds)
      rw [keep, keep, Region.emit_ofBlock, Region.next_ofBlock hopening hclosing]

/-! ### The readers compared -/

theorem stripFrom_cons {scan : Scan} {c : Char} {cs kept : List Char}
    (h : stripFrom scan cs = .ok kept) :
    (do let rest ← stripFrom scan cs; return c :: rest) = .ok (c :: kept) :=
  bind_eq_ok.mpr ⟨kept, h, rfl⟩

/-- **A reader that looks ahead keeps what one that remembers keeps**, and it is inside a block
comment wherever it leaves one. -/
theorem stripFrom_eq (scan : Scan) (text : List Char) (h : scan.IsDeep) :
    stripFrom scan text = .ok (keep scan.region text) := by
  fun_induction stripFrom scan text with
  | case1 scan => cases scan <;> rfl
  | case2 cs ih => exact ih trivial
  | case3 cs ih => exact ih (Nat.le_refl 1)
  | case4 c cs hline hblock ih =>
      by_cases hslash : c = '/'
      · subst hslash
        have hkeep : keep .slash cs = '/' :: keep .code cs :=
          keep_slash (fun ⟨t, ht⟩ => hline t rfl ht.symm) fun ⟨t, ht⟩ => hblock t rfl ht.symm
        exact (stripFrom_cons (ih trivial)).trans (congrArg Except.ok hkeep.symm)
      · have hkeep : keep .code (c :: cs)
            = c :: keep (if isQuote c then Scan.literal c else Scan.code).region cs := by
          rw [keep, Region.emit, if_neg hslash, Region.next, Region.ofCode, if_neg hslash]
          split <;> rfl
        rw [Scan.region, hkeep]
        exact stripFrom_cons (ih (by split <;> trivial))
  | case5 quote => rfl
  | case6 quote c cs ih =>
      exact bind_eq_ok.mpr ⟨_, ih trivial, rfl⟩
  | case7 quote c cs hlast hescape ih =>
      have hbackslash : c ≠ '\\' := by
        rintro rfl
        cases cs with
        | nil => exact hlast rfl rfl
        | cons d ds => exact hescape d ds rfl rfl
      have hkeep : keep (.literal quote) (c :: cs)
          = c :: keep (if c = quote ∨ c = '\n' then Scan.code else Scan.literal quote).region cs := by
        rw [keep, Region.next, if_neg hbackslash]
        split <;> rfl
      rw [Scan.region, hkeep]
      exact stripFrom_cons (ih (by split <;> trivial))
  | case8 cs ih => exact stripFrom_cons (ih trivial)
  | case9 c cs hnewline ih =>
      rw [ih trivial, Scan.region, keep, Region.emit, Region.next, if_neg hnewline, if_neg hnewline]
      rfl
  | case10 cs ih => exact ih trivial
  | case11 depth cs hone ih =>
      -- At least two are open, so one is left when this one is closed.
      obtain ⟨outer, rfl⟩ : ∃ outer, depth = outer + 1 + 1 :=
        Nat.exists_eq_add_of_le' (Nat.lt_of_le_of_ne h fun he => hone he.symm)
      rw [checkedSub_add, ok_bind]
      exact ih (outer + 1) (Nat.le_add_left 1 outer)
  | case12 depth cs ih =>
      obtain ⟨outer, rfl⟩ := Nat.exists_eq_add_of_le' h
      exact ih (Nat.le_add_left 1 _)
  | case13 depth cs ih => exact stripFrom_cons (ih h)
  | case14 depth c cs hclose hopen hnewline ih =>
      have hkeep : keep (Region.ofBlock (depth - 1) c) cs = keep (.block (depth - 1)) cs := by
        refine keep_ofBlock ?_ ?_ (depth - 1)
        · rintro ⟨t, ht⟩
          obtain ⟨hc, ht⟩ := List.cons.inj ht
          exact hopen t hc.symm ht.symm
        · rintro ⟨t, ht⟩
          obtain ⟨hc, ht⟩ := List.cons.inj ht
          exact hclose t hc.symm ht.symm
      rw [ih h, Scan.region, keep, Region.emit, if_neg hnewline, Region.next, hkeep]
      rfl

/-- **Comments are stripped without a fault**, and no block comment is left that was not entered. -/
theorem stripFrom_code (source : List Char) :
    stripFrom .code source = .ok (stripComments source) :=
  stripFrom_eq .code source trivial

end UseCases.Dart
