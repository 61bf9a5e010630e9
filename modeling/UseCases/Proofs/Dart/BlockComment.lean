/-
Comments that are closed.

A block comment runs from its `/*` to the `*/` that closes it, and the block comments inside it are
closed before.  `Closes` says so of the text after a `/*`, without a reader: a character inside the
comment is one at which no marker starts, whatever it would mean outside.

The reader of comments agrees with that at every depth.  It reads one character at a time and so
decides about a `/` or a `*` late, but a character at which no marker starts leaves it as if it had
not been read (`next_ofBlock`).  What a closed comment leaves of itself is its newlines, and what
stands before and after it is stripped as if the comment were not there.
-/
import UseCases.Proofs.Dart.Stripping

namespace UseCases.Dart

/-- The text after the `/*` of a block comment, up to the `*/` that closes it. -/
inductive Closes : List Char → Prop
  | close : Closes ['*', '/']
  | nested {inner rest : List Char} (inside : Closes inner) (after : Closes rest) :
      Closes ('/' :: '*' :: (inner ++ rest))
  | char {c : Char} {rest : List Char} (opensNone : ¬['/', '*'] <+: c :: rest)
      (closesNone : ¬['*', '/'] <+: c :: rest) (after : Closes rest) : Closes (c :: rest)

/-- A block comment with everything that stands in it, and nothing else. -/
def IsBlockComment (text : List Char) : Prop :=
  ∃ rest, text = '/' :: '*' :: rest ∧ Closes rest

theorem Closes.ne_nil {text : List Char} (h : Closes text) : text ≠ [] := by
  cases h <;> simp

/-! ### Inside a block comment -/

namespace Region

theorem kept_append (r : Region) (a b : List Char) :
    r.kept (a ++ b) = r.kept a ++ (r.after a).kept b := by
  induction a generalizing r with
  | nil => rfl
  | cons c cs ih => rw [List.cons_append, kept, ih, kept, List.append_assoc, after_cons]

/-- A character at which no marker starts leaves the reader where it was. -/
theorem next_ofBlock {c d : Char} (hopen : ¬(c = '/' ∧ d = '*')) (hclose : ¬(c = '*' ∧ d = '/'))
    (outer : Nat) : (ofBlock outer c).next d = (block outer).next d := by
  unfold ofBlock
  split
  · rename_i hslash
    have hd : d ≠ '*' := fun hd => hopen ⟨hslash, hd⟩
    simp only [next, if_neg hd]
  · split
    · rename_i hstar
      have hd : d ≠ '/' := fun hd => hclose ⟨hstar, hd⟩
      simp only [next, if_neg hd]
    · rfl

/-- Of a block comment the newlines are kept. -/
theorem emit_ofBlock (outer : Nat) (c d : Char) :
    (ofBlock outer c).emit d = (block outer).emit d := by
  rcases ofBlock_cases outer c with h | h | h <;> rw [h] <;> rfl

/-- **A closed block comment leaves its newlines**, and its reader in the comment around it, or in
code. -/
theorem kept_of_closes {text : List Char} (h : Closes text) (outer : Nat) :
    (block outer).kept text = text.filter (· == '\n') ∧
      (block outer).after text = outside outer := by
  induction h generalizing outer with
  | close => exact ⟨rfl, rfl⟩
  | @nested inner rest inside after ihInner ihRest =>
      obtain ⟨hkept, hafter⟩ := ihInner (outer + 1)
      obtain ⟨hkept', hafter'⟩ := ihRest outer
      have hopen : ((block outer).next '/').next '*' = block (outer + 1) := rfl
      constructor
      · show ((block outer).next '/').emit '*' ++
          (((block outer).next '/').next '*').kept (inner ++ rest) = _
        rw [hopen, kept_append, hkept, hafter, outside, hkept', ← List.filter_append]
        rfl
      · rw [after_cons, after_cons, hopen, after_append, hafter, outside, hafter']
  | @char c rest opensNone closesNone after ih =>
      obtain ⟨hkept, hafter⟩ := ih outer
      obtain ⟨d, ds, hrest⟩ := List.exists_cons_of_ne_nil after.ne_nil
      have hnext : (ofBlock outer c).next d = (block outer).next d := by
        refine next_ofBlock ?_ ?_ outer
        · rintro ⟨rfl, rfl⟩
          exact opensNone ⟨ds, by rw [hrest]; rfl⟩
        · rintro ⟨rfl, rfl⟩
          exact closesNone ⟨ds, by rw [hrest]; rfl⟩
      have hsame : (ofBlock outer c).kept rest = (block outer).kept rest := by
        rw [hrest, kept, kept, emit_ofBlock, hnext]
      constructor
      · show (if c = '\n' then [c] else []) ++ (ofBlock outer c).kept rest = _
        rw [hsame, hkept]
        by_cases hc : c = '\n'
        · rw [if_pos hc, List.filter_cons_of_pos (by rw [hc]; rfl), List.singleton_append]
        · rw [if_neg hc, List.filter_cons_of_neg (by simpa using hc), List.nil_append]
      · show (ofBlock outer c).after rest = _
        rw [← hafter, hrest, after_cons, hnext, after_cons]

/-- A line comment stays one until its line ends. -/
theorem after_lineComment {text : List Char} (h : '\n' ∉ text) :
    lineComment.kept text = [] ∧ lineComment.after text = .lineComment := by
  induction text with
  | nil => exact ⟨rfl, rfl⟩
  | cons c cs ih =>
      rw [List.mem_cons, not_or] at h
      obtain ⟨hkept, hafter⟩ := ih h.2
      have hc : c ≠ '\n' := fun hc => h.1 hc.symm
      have hnext : lineComment.next c = .lineComment := by rw [next, if_neg hc]
      exact ⟨by rw [kept, hnext, hkept, emit, if_neg hc]; rfl, by rw [after_cons, hnext, hafter]⟩

end Region

/-! ### Comments in a source -/

/-- **A source may be cut wherever its reader stands in code**, and its parts stripped apart. -/
theorem stripComments_append {a : List Char} (h : Region.code.after a = .code) (b : List Char) :
    stripComments (a ++ b) = stripComments a ++ stripComments b := by
  have hfirst : stripComments a = Region.code.kept a := by
    rw [stripComments, keep_eq_kept, h]
    exact List.append_nil _
  rw [hfirst, stripComments, keep_append, h]
  rfl

theorem stripComments_blockComment {c : List Char} (h : IsBlockComment c) (b : List Char) :
    stripComments (c ++ b) = c.filter (· == '\n') ++ stripComments b := by
  obtain ⟨rest, rfl, hcloses⟩ := h
  obtain ⟨hkept, hafter⟩ := Region.kept_of_closes hcloses 0
  have hopen : (Region.code.next '/').next '*' = .block 0 := rfl
  show (Region.code.emit '/' ++ ((Region.code.next '/').emit '*' ++
    keep ((Region.code.next '/').next '*') (rest ++ b))) = _
  rw [hopen, keep_append, hkept, hafter]
  rfl

theorem stripComments_lineComment {t : List Char} (h : '\n' ∉ t) (b : List Char) :
    stripComments ('/' :: '/' :: (t ++ '\n' :: b)) = '\n' :: stripComments b := by
  obtain ⟨hkept, hafter⟩ := Region.after_lineComment h
  have hopen : (Region.code.next '/').next '/' = .lineComment := rfl
  show (Region.code.emit '/' ++ ((Region.code.next '/').emit '/' ++
    keep ((Region.code.next '/').next '/') (t ++ '\n' :: b))) = _
  rw [hopen, keep_append, hkept, hafter]
  rfl

end UseCases.Dart
