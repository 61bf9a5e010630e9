/-
A literal and the end of its line.

A newline takes the reader of comments out of a line comment and out of a literal, so that a quote
which nothing closes does not reach the next line.  It does that from wherever in a literal the
reader stands, except for just after a backslash: there the newline is read as the escaped
character, like any other, and the literal goes on.

So a text may be cut at a newline and its parts stripped apart exactly if no block comment is open
there and the newline is not escaped.  A text in which that is so at every newline is stripped line
by line, and a line shows nothing of the lines before it.
-/
import UseCases.Proofs.Dart.Stripping

namespace UseCases.Dart

open Text

variable {a b text : List Char} {q : Char}

/-! ### One newline -/

namespace Region

/-- A reader in this region is inside a block comment. -/
def inBlock : Region → Bool
  | .block _ | .blockSlash _ | .blockStar _ => true
  | .code | .slash | .literal _ | .escape _ | .lineComment => false

/-- A reader in this region has read a backslash that escapes the next character. -/
def escapes : Region → Bool
  | .escape _ => true
  | .code | .slash | .literal _ | .lineComment | .block _ | .blockSlash _ | .blockStar _ => false

theorem escapes_iff {r : Region} : r.escapes = true ↔ ∃ quote, r = .escape quote := by
  cases r <;> simp [escapes]

theorem next_newline (r : Region) :
    r.next '\n' = match r with
      | .escape quote => .literal quote
      | .block outer | .blockSlash outer | .blockStar outer => .block outer
      | .code | .slash | .literal _ | .lineComment => .code := by
  cases r with
  | literal quote => simp [next]
  | _ => rfl

/-- Only a backslash inside a literal escapes what follows. -/
theorem next_eq_escape {r : Region} {c : Char} :
    r.next c = .escape q ↔ r = .literal q ∧ c = '\\' := by
  constructor
  · intro h
    cases r with
    | literal quote =>
        simp only [next] at h
        split at h
        · rename_i hc
          cases h
          exact ⟨rfl, hc⟩
        · split at h <;> cases h
    | escape quote => cases h
    | code | slash | lineComment | block | blockSlash => grind [next, ofCode, ofBlock]
    | blockStar outer => cases outer <;> grind [next, ofBlock, outside]
  · rintro ⟨rfl, rfl⟩
    rfl

end Region

/-! ### Where a text leaves its reader -/

/-- The text leaves a block comment open. -/
def EndsInBlock (text : List Char) : Prop :=
  (Region.code.after text).inBlock = true

/-- The text ends in a backslash inside a literal, which escapes the next character. -/
def EndsInEscape (text : List Char) : Prop :=
  ∃ front quote, text = front ++ ['\\'] ∧ Region.code.after front = .literal quote

theorem endsInEscape_iff : EndsInEscape text ↔ ∃ quote, Region.code.after text = .escape quote := by
  constructor
  · rintro ⟨front, quote, rfl, hfront⟩
    refine ⟨quote, ?_⟩
    rw [Region.after_append, hfront]
    rfl
  · rintro ⟨quote, h⟩
    rcases List.eq_nil_or_concat text with rfl | ⟨front, c, rfl⟩
    · cases h
    · rw [List.concat_eq_append, Region.after_append] at h
      obtain ⟨hfront, rfl⟩ := Region.next_eq_escape.mp h
      exact ⟨front, quote, List.concat_eq_append, hfront⟩

instance (text : List Char) : Decidable (EndsInBlock text) :=
  inferInstanceAs (Decidable (_ = true))

instance (text : List Char) : Decidable (EndsInEscape text) :=
  decidable_of_iff _ (Region.escapes_iff.trans endsInEscape_iff.symm)

theorem after_newline (a : List Char) :
    Region.code.after (a ++ ['\n']) = (Region.code.after a).next '\n' :=
  Region.after_append .code a ['\n']

/-- **A newline that is not escaped ends a literal**: it leaves its reader in code, or in the block
comment it stood in. -/
theorem after_newline_iff :
    (Region.code.after (a ++ ['\n']) = .code ∨
        ∃ outer, Region.code.after (a ++ ['\n']) = .block outer) ↔ ¬EndsInEscape a := by
  rw [after_newline, Region.next_newline, endsInEscape_iff]
  cases Region.code.after a <;> simp

theorem after_newline_eq_code (hblock : ¬EndsInBlock a) (hescape : ¬EndsInEscape a) :
    Region.code.after (a ++ ['\n']) = .code := by
  rw [after_newline, Region.next_newline]
  rw [EndsInBlock] at hblock
  rw [endsInEscape_iff] at hescape
  cases hregion : Region.code.after a <;> simp_all [Region.inBlock]

/-- **A text is stripped in two parts** at a newline outside block comments exactly if the newline
is not escaped. -/
theorem stripComments_append_newline_iff (hblock : ¬EndsInBlock a) :
    (∀ b, stripComments (a ++ '\n' :: b) = stripComments a ++ '\n' :: stripComments b) ↔
      ¬EndsInEscape a := by
  constructor
  · intro h hescape
    obtain ⟨quote, hregion⟩ := endsInEscape_iff.mp hescape
    -- The literal goes on, so a comment on the next line is kept.
    have hcomment := h ['/', '/']
    rw [stripComments, keep_append_newline, after_newline, hregion] at hcomment
    have hkept := (List.cons.inj (List.append_cancel_left hcomment)).2
    cases hkept
  · intro hescape b
    exact stripComments_append_newline (after_newline_eq_code hblock hescape) b

/-! ### Whole texts -/

/-- At every newline of the text no block comment is open, and it is not escaped. -/
def EndsLines (text : List Char) : Prop :=
  ∀ a b, text = a ++ '\n' :: b → ¬EndsInBlock a ∧ ¬EndsInEscape a

instance (text : List Char) : Decidable (EndsLines text) :=
  decidable_of_iff _ forall_before_iff.symm

theorem newline_notMem_stripComments (h : '\n' ∉ text) : '\n' ∉ stripComments text := by
  rw [← List.count_eq_zero] at h ⊢
  rw [count_newline_stripComments, h]

/-- What follows a newline of such a text is such a text. -/
theorem EndsLines.after_newline (h : EndsLines (a ++ '\n' :: b)) : EndsLines b := by
  obtain ⟨hblock, hescape⟩ := h a b rfl
  have hcode := after_newline_eq_code hblock hescape
  have hregion : ∀ x, Region.code.after (a ++ '\n' :: x) = Region.code.after x := fun x => by
    rw [List.append_cons, Region.after_append, hcode]
  rintro x y rfl
  have hlater := h (a ++ '\n' :: x) y (by simp)
  rwa [EndsInBlock, endsInEscape_iff, hregion, ← EndsInBlock, ← endsInEscape_iff] at hlater

/-- **Such a text is stripped line by line.** -/
theorem EndsLines.lines_stripComments (h : EndsLines text) :
    lines (stripComments text) = (lines text).map stripComments := by
  induction hlength : text.length using Nat.strong_induction_on generalizing text with
  | _ n ih =>
      by_cases hnewline : '\n' ∈ text
      · obtain ⟨first, rest, rfl, hfirst⟩ := List.eq_append_cons_of_mem hnewline
        obtain ⟨hblock, hescape⟩ := h first rest rfl
        have hrest := ih rest.length (by rw [← hlength]; simp; omega) h.after_newline rfl
        rw [stripComments_append_newline (after_newline_eq_code hblock hescape),
          lines_append_newline (newline_notMem_stripComments hfirst), hrest,
          lines_append_newline hfirst, List.map_cons]
      · have hwhole : ∀ line : List Char, '\n' ∉ line → lines line = [line] := fun line hline =>
          splitAt_eq_singleton fun c hc => beq_eq_false_iff_ne.mpr fun he => hline (he ▸ hc)
        rw [hwhole text hnewline, hwhole _ (newline_notMem_stripComments hnewline),
          List.map_singleton]

/--
**A newline ends a literal, unless it is escaped.**  After a newline the reader of comments stands
in code or in a block comment exactly if no backslash of a literal stands before the newline.  At a
newline outside block comments a text is stripped in two parts, whatever follows, exactly under the
same condition.  A text with such newlines only is stripped line by line.
-/
theorem newline_ends_literal_iff (a : List Char) :
    ((Region.code.after (a ++ ['\n']) = .code ∨
        ∃ outer, Region.code.after (a ++ ['\n']) = .block outer) ↔ ¬EndsInEscape a) ∧
    (¬EndsInBlock a →
      ((∀ b, stripComments (a ++ '\n' :: b) = stripComments a ++ '\n' :: stripComments b) ↔
        ¬EndsInEscape a)) ∧
    (EndsLines a → lines (stripComments a) = (lines a).map stripComments) :=
  ⟨after_newline_iff, stripComments_append_newline_iff, EndsLines.lines_stripComments⟩

/-- A backslash that is escaped itself does not escape the newline behind it: the literal that
nothing closes ends there, and the comment on the next line is stripped. -/
theorem unclosed_literal_ends :
    ¬EndsInBlock "f('C:\\\\".toList ∧ ¬EndsInEscape "f('C:\\\\".toList ∧
      stripComments ("f('C:\\\\".toList ++ '\n' :: "g(); // '".toList)
        = "f('C:\\\\\ng(); ".toList ∧
      EndsLines "f('C:\\\\\ng(); // '".toList ∧
      lines (stripComments "f('C:\\\\\ng(); // '".toList)
        = ["f('C:\\\\".toList, "g(); ".toList] := by
  have hblock : ¬EndsInBlock "f('C:\\\\".toList := by decide
  have hescape : ¬EndsInEscape "f('C:\\\\".toList := by decide
  have hlines : EndsLines "f('C:\\\\\ng(); // '".toList := by decide
  refine ⟨hblock, hescape, ?_, hlines, ?_⟩
  · rw [((newline_ends_literal_iff _).2.1 hblock).mpr hescape]
    decide
  · rw [(newline_ends_literal_iff _).2.2 hlines]
    decide

/-- **An escaped newline keeps a literal open**: the comment on the next line is taken for text. -/
theorem escaped_newline_hides_comment :
    ¬EndsInBlock "'\\".toList ∧
      Region.code.after ("'\\".toList ++ ['\n']) = .literal '\'' ∧
      stripComments ("'\\".toList ++ '\n' :: "// hidden".toList) = "'\\\n// hidden".toList ∧
      stripComments "'\\".toList ++ '\n' :: stripComments "// hidden".toList = "'\\\n".toList := by
  decide

end UseCases.Dart
