/-
One reading.

A text that starts with a token and goes on with something that could not continue the token can be
taken apart in one way only: the token is the longest one that stands there.  This holds of white
space before anything else, of an identifier, and of a type token, in which the head, the arguments
and the question mark are told apart by their characters.

So a grammar that puts such tokens one after the other, with a mark between any two that could run
into each other, gives a text at most one reading, and a reader of it never has to go back.
-/
import UseCases.Proofs.Dart.Reading

namespace UseCases.Dart

open Text

variable {a b x y : List Char} {c : Char}

/-! ### White space -/

/-- White space, or nothing. -/
abbrev Blanks := {text : List Char // ∀ c ∈ text, isBlank c = true}

/-- A text that starts with no white space. -/
def StartsVisible (text : List Char) : Prop :=
  ∀ c, text.head? = some c → isBlank c = false

theorem startsVisible_cons (hc : isBlank c = false) (cs : List Char) : StartsVisible (c :: cs) := by
  rintro d ⟨rfl⟩
  exact hc

theorem startsVisible_name {continues : Char → Bool} (h : isName continues a = true)
    (x : List Char) : StartsVisible (a ++ x) := by
  obtain ⟨c, cs, rfl, hhead, -⟩ := exists_of_isName h
  exact startsVisible_cons (isBlank_of_isHead hhead) _

theorem startsVisible_type (t : TypeToken) (x : List Char) : StartsVisible (t.text ++ x) := by
  obtain ⟨c, cs, htext, hhead⟩ := t.exists_text_cons
  rw [htext]
  exact startsVisible_cons (isBlank_of_isHead hhead) _

theorem skipBlanks_blanks (blanks : Blanks) (hx : StartsVisible x) :
    skipBlanks (blanks.val ++ x) = x :=
  dropWhile_append_stop blanks.property hx

theorem blanks_unique {blanks blanks' : Blanks} (hx : StartsVisible x) (hy : StartsVisible y)
    (h : blanks.val ++ x = blanks'.val ++ y) : blanks = blanks' ∧ x = y := by
  obtain ⟨hblanks, hrest⟩ := class_unique blanks.property blanks'.property hx hy h
  exact ⟨Subtype.ext hblanks, hrest⟩

/-- Every text starts with white space or nothing. -/
theorem exists_blanks (text : List Char) :
    ∃ blanks : Blanks, text = blanks.val ++ skipBlanks text := by
  obtain ⟨blanks, hblanks, htext⟩ := exists_skipBlanks text
  exact ⟨⟨blanks, hblanks⟩, htext⟩

/-- **A mark is read** past white space and nothing else. -/
theorem readMark?_eq_some_iff (hc : isBlank c = false) :
    readMark? c x = some y ↔ ∃ blanks : Blanks, x = blanks.val ++ c :: y := by
  constructor
  · intro h
    obtain ⟨blanks, hblanks, hx⟩ := readMark?_split h
    exact ⟨⟨blanks, hblanks⟩, hx⟩
  · rintro ⟨blanks, rfl⟩
    rw [readMark?, skipBlanks_blanks blanks (startsVisible_cons hc y)]
    exact if_pos rfl

/-! ### Identifiers -/

/-- An identifier. -/
abbrev Identifier := {text : List Char // isIdentifier text = true}

theorem identifier_unique {name name' : Identifier}
    (hx : ∀ c, x.head? = some c → isIdentifierChar c = false)
    (hy : ∀ c, y.head? = some c → isIdentifierChar c = false)
    (h : name.val ++ x = name'.val ++ y) : name = name' ∧ x = y := by
  obtain ⟨hname, hrest⟩ := class_unique (forall_mem_identifier name.property)
    (forall_mem_identifier name'.property) hx hy h
  exact ⟨Subtype.ext hname, hrest⟩

/-- **An identifier is read** to its end. -/
theorem readIdentifier?_eq_some_iff {lexeme : Lexeme} :
    readIdentifier? x = some lexeme ↔
      ∃ name : Identifier, x = name.val ++ lexeme.rest ∧ lexeme.token = name.val ∧
        ∀ c, lexeme.rest.head? = some c → isIdentifierChar c = false := by
  constructor
  · intro h
    obtain ⟨hname, hx⟩ := readName?_split h
    refine ⟨⟨lexeme.token, hname⟩, hx, rfl, fun c hc => ?_⟩
    cases x with
    | nil => cases h
    | cons d ds =>
        rw [readIdentifier?, readName?] at h
        split at h
        · cases h
          have hstop := List.head?_dropWhile_not isIdentifierChar ds
          rw [hc] at hstop
          simpa using hstop
        · cases h
  · rintro ⟨name, rfl, htoken, hstop⟩
    rw [readIdentifier?_append name.property hstop, ← htoken]

/-! ### Type tokens -/

namespace TypeToken

theorem isTypeChar_of_mem {t : TypeToken} (h : c ∈ t.head) : isTypeChar c = true :=
  forall_mem_of_isName (fun _ hd => isTypeChar_of_isIdentifierChar (isIdentifierChar_of_isHead hd))
    t.head_isName c h

theorem eq_of_parts {t t' : TypeToken} (hhead : t.head = t'.head)
    (harguments : t.arguments? = t'.arguments?) (hnullable : t.nullable = t'.nullable) :
    t = t' := by
  cases t
  cases t'
  cases hhead
  cases harguments
  cases hnullable
  rfl

/-- Arguments end in their closing bracket, so a question mark is that of a nullable type. -/
theorem getLast?_iff_nullable (t : TypeToken) :
    (t.argumentText ++ t.mark).getLast? = some '?' ↔ t.nullable = true := by
  unfold mark
  cases hnull : t.nullable with
  | true => simp
  | false =>
      unfold argumentText
      cases t.arguments? with
      | none => simp
      | some a => simp [List.getLast?_cons]

/-- Arguments start with white space and an opening bracket. -/
theorem arguments_eq {t t' : TypeToken} (h : t.argumentText = t'.argumentText) :
    t.arguments? = t'.arguments? := by
  unfold argumentText at h
  cases hargs : t.arguments? with
  | none =>
      cases hargs' : t'.arguments? with
      | none => rfl
      | some a => simp [hargs, hargs'] at h
  | some a =>
      obtain ⟨gap, inside⟩ := a
      cases hargs' : t'.arguments? with
      | none => simp [hargs, hargs'] at h
      | some a' =>
          obtain ⟨gap', inside'⟩ := a'
          simp only [hargs, hargs'] at h
          obtain ⟨rfl, hrest⟩ := class_unique (isBlank_of_mem_gap hargs) (isBlank_of_mem_gap hargs')
            (startsVisible_cons (by decide) _) (startsVisible_cons (by decide) _) h
          obtain ⟨rfl, -⟩ := List.append_inj' (List.cons.inj hrest).2 rfl
          rfl

/-- **The parts of a type token can be read off its text.** -/
theorem text_injective {t t' : TypeToken} (h : t.text = t'.text) : t = t' := by
  have hnothing : ∀ c, ([] : List Char).head? = some c → isTypeChar c = false := by simp
  have hstop : ∀ t : TypeToken, ∀ c, (t.argumentText ++ t.mark).head? = some c →
      isTypeChar c = false := fun t c hc => isTypeChar_after_head t hnothing (by simpa using hc)
  obtain ⟨hhead, hrest⟩ := class_unique (fun c => isTypeChar_of_mem) (fun c => isTypeChar_of_mem)
    (hstop t) (hstop t') h
  have hnullable : t.nullable = t'.nullable := by
    rw [Bool.eq_iff_iff, ← getLast?_iff_nullable, ← getLast?_iff_nullable, hrest]
  have hmark : t.mark = t'.mark := by rw [mark, mark, hnullable]
  rw [hmark, List.append_cancel_right_eq] at hrest
  exact eq_of_parts hhead (arguments_eq hrest) hnullable

/-- **A type token before something that cannot continue it** is told apart in one way. -/
theorem unique {t t' : TypeToken} (hx : EndsType x) (hy : EndsType y)
    (h : t.text ++ x = t'.text ++ y) : t = t' ∧ x = y := by
  have hread := readType?_append t hx
  rw [h, readType?_append t' hy] at hread
  obtain ⟨htext, hrest⟩ := Lexeme.mk.inj (Option.some.inj hread)
  exact ⟨text_injective htext.symm, hrest.symm⟩

end TypeToken

/-- What ends a type ends it behind white space, too. -/
theorem EndsType.blanks (hx : EndsType x) (blanks : Blanks) : EndsType (blanks.val ++ x) where
  head d hd := by
    obtain ⟨text, hblanks⟩ := blanks
    cases text with
    | nil => exact hx.head d hd
    | cons e es =>
        cases hd
        have hblank := hblanks d List.mem_cons_self
        refine ⟨?_, ?_⟩
        · by_contra htype
          rw [isBlank_of_isTypeChar (by simpa using htype)] at hblank
          cases hblank
        · rintro rfl
          exact absurd hblank (by decide)
  noArguments cs := by
    rw [skipBlanks, List.dropWhile_append_of_pos blanks.property]
    exact hx.noArguments cs

/-- **A type token is read** behind white space. -/
theorem readType?_blanks (blanks : Blanks) (t : TypeToken) (hx : EndsType x) :
    readType? (skipBlanks (blanks.val ++ (t.text ++ x))) = some ⟨t.text, x⟩ := by
  rw [skipBlanks_blanks blanks (startsVisible_type t x)]
  exact readType?_append t hx

end UseCases.Dart
