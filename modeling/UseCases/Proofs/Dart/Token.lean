/-
Identifiers and type tokens, written and read back.

A token is described by its characters, apart from how it is read.  What is shown is that a
reader given a token and whatever may follow it reads that token and stops there: an
identifier is followed by something that could not continue it, and a type by something
that is no `?` and, past white space, no `<`.
-/
import UseCases.Dart.Token
import UseCases.Proofs.Text.Scanning

namespace UseCases.Dart

open Text

/-! ### Classes of characters -/

/-- White space ends a word: none of its characters is a word character. -/
theorem isWord_of_isBlank {c : Char} (h : isBlank c = true) : isWord c = false := by
  have hcode : c.toNat ∈ [0x09, 0x0a, 0x0b, 0x0c, 0x0d, 0x20, 0x85, 0xa0, 0x1680, 0x2000, 0x2001,
      0x2002, 0x2003, 0x2004, 0x2005, 0x2006, 0x2007, 0x2008, 0x2009, 0x200a, 0x2028, 0x2029,
      0x202f, 0x205f, 0x3000] := by
    simp only [isBlank, Bool.or_eq_true, Bool.and_eq_true, decide_eq_true_eq, beq_iff_eq] at h
    simp only [List.mem_cons, List.not_mem_nil, or_false]
    omega
  have hnone : ∀ n ∈ [0x09, 0x0a, 0x0b, 0x0c, 0x0d, 0x20, 0x85, 0xa0, 0x1680, 0x2000, 0x2001,
      0x2002, 0x2003, 0x2004, 0x2005, 0x2006, 0x2007, 0x2008, 0x2009, 0x200a, 0x2028, 0x2029,
      0x202f, 0x205f, 0x3000], isWord (Char.ofNat n) = false := by
    decide +kernel
  simpa using hnone _ hcode

theorem isIdentifierChar_of_isBlank {c : Char} (h : isBlank c = true) :
    isIdentifierChar c = false := by
  rw [isIdentifierChar, isWord_of_isBlank h, Bool.false_or, beq_eq_false_iff_ne]
  rintro rfl
  exact absurd h (by decide)

theorem isBlank_of_isIdentifierChar {c : Char} (h : isIdentifierChar c = true) :
    isBlank c = false := by
  by_contra hblank
  rw [isIdentifierChar_of_isBlank (by simpa using hblank)] at h
  cases h

theorem toNat_lt_of_isHead {c : Char} (h : isHead c = true) : c.toNat < 0x80 := by
  have hhead : ((decide (c.val ≥ 'A'.val ∧ c.val ≤ 'Z'.val) ||
      (decide (c.val ≥ 'a'.val) && decide (c.val ≤ 'z'.val))) || c == '_' || c == '$') = true := h
  simp only [Bool.or_eq_true, Bool.and_eq_true, decide_eq_true_eq, beq_iff_eq,
    UInt32.le_iff_toNat_le] at hhead
  rcases hhead with ((⟨-, h⟩ | ⟨-, h⟩) | rfl) | rfl
  · exact Nat.lt_of_le_of_lt h (by decide)
  · exact Nat.lt_of_le_of_lt h (by decide)
  · decide
  · decide

theorem isIdentifierChar_of_isHead {c : Char} (h : isHead c = true) :
    isIdentifierChar c = true := by
  have hsmall := toNat_lt_of_isHead h
  simp only [isHead, Bool.or_eq_true, beq_iff_eq] at h
  rw [isIdentifierChar, isWord, if_pos hsmall, isAsciiWord, Char.isAlphanum]
  rcases h with (h | h) | h <;> simp [h]

theorem isTypeChar_of_isIdentifierChar {c : Char} (h : isIdentifierChar c = true) :
    isTypeChar c = true := by
  rw [isTypeChar, h]
  rfl

theorem isBlank_of_isHead {c : Char} (h : isHead c = true) : isBlank c = false :=
  isBlank_of_isIdentifierChar (isIdentifierChar_of_isHead h)

/-! ### Names

A name is a head character and characters that continue it.  An identifier is a name, and so
is the head of a type, which may contain dots as well.
-/

/-- A head character, and characters that `continues` holds of. -/
def isName (continues : Char → Bool) : List Char → Bool
  | [] => false
  | c :: cs => isHead c && cs.all continues

/-- An identifier. -/
def isIdentifier (text : List Char) : Bool :=
  isName isIdentifierChar text

theorem exists_of_isName {continues : Char → Bool} {text : List Char}
    (h : isName continues text = true) :
    ∃ c cs, text = c :: cs ∧ isHead c = true ∧ ∀ d ∈ cs, continues d = true := by
  cases text with
  | nil => cases h
  | cons c cs =>
      obtain ⟨hhead, hrest⟩ := Bool.and_eq_true_iff.mp h
      exact ⟨c, cs, rfl, hhead, List.all_eq_true.mp hrest⟩

/-- All characters of a name continue it. -/
theorem forall_mem_of_isName {continues : Char → Bool} {text : List Char}
    (hcontinues : ∀ c, isHead c = true → continues c = true)
    (h : isName continues text = true) : ∀ c ∈ text, continues c = true := by
  obtain ⟨c, cs, rfl, hhead, hrest⟩ := exists_of_isName h
  intro d hd
  rcases List.mem_cons.mp hd with rfl | hd
  · exact hcontinues d hhead
  · exact hrest d hd

theorem forall_mem_identifier {text : List Char} (h : isIdentifier text = true) :
    ∀ c ∈ text, isIdentifierChar c = true :=
  forall_mem_of_isName (fun _ => isIdentifierChar_of_isHead) h

/-- A character that is none of an identifier does not stand in one. -/
theorem not_mem_identifier {text : List Char} (h : isIdentifier text = true) {c : Char}
    (hc : isIdentifierChar c = false) : c ∉ text := by
  intro hmem
  rw [forall_mem_identifier h c hmem] at hc
  cases hc

theorem readName?_append {continues : Char → Bool} {text rest : List Char}
    (h : isName continues text = true)
    (hstop : ∀ c, rest.head? = some c → continues c = false) :
    readName? continues (text ++ rest) = some ⟨text, rest⟩ := by
  obtain ⟨c, cs, rfl, hhead, hcs⟩ := exists_of_isName h
  rw [List.cons_append, readName?, if_pos hhead, takeWhile_append_stop hcs hstop,
    dropWhile_append_stop hcs hstop]

theorem isIdentifier_of_readIdentifier? {text : List Char} {lexeme : Lexeme}
    (h : readIdentifier? text = some lexeme) : isIdentifier lexeme.token = true := by
  cases text with
  | nil => cases h
  | cons c cs =>
      rw [readIdentifier?, readName?] at h
      split at h
      · rename_i hhead
        cases h
        simp only [isIdentifier, isName, hhead, Bool.true_and, List.all_eq_true]
        exact fun d hd => List.mem_takeWhile_imp hd
      · cases h

theorem readIdentifier?_append {text rest : List Char} (h : isIdentifier text = true)
    (hstop : ∀ c, rest.head? = some c → isIdentifierChar c = false) :
    readIdentifier? (text ++ rest) = some ⟨text, rest⟩ :=
  readName?_append h hstop

/-! ### Type tokens -/

/-- A type token in its parts. -/
structure TypeToken where
  head : List Char
  /-- The white space before the angle brackets, and what stands between them. -/
  arguments? : Option (List Char × List Char)
  nullable : Bool
  head_isName : isName isTypeChar head = true
  gap_isBlank : arguments?.all (fun a => a.1.all isBlank) = true
  /-- The arguments contain no further angle brackets. -/
  inside_isArgument : arguments?.all (fun a => a.2.all isArgumentChar) = true

namespace TypeToken

/-- The arguments as they are written. -/
def argumentText (t : TypeToken) : List Char :=
  match t.arguments? with
  | none => []
  | some (gap, inside) => gap ++ '<' :: (inside ++ ['>'])

/-- The question mark of a nullable type. -/
def mark (t : TypeToken) : List Char :=
  if t.nullable then ['?'] else []

/-- The token as it is written. -/
def text (t : TypeToken) : List Char :=
  t.head ++ (t.argumentText ++ t.mark)

theorem isBlank_of_mem_gap {t : TypeToken} {gap inside : List Char}
    (h : t.arguments? = some (gap, inside)) : ∀ c ∈ gap, isBlank c = true := by
  have hgap := t.gap_isBlank
  rw [h] at hgap
  exact List.all_eq_true.mp hgap

theorem isArgumentChar_of_mem_inside {t : TypeToken} {gap inside : List Char}
    (h : t.arguments? = some (gap, inside)) : ∀ c ∈ inside, isArgumentChar c = true := by
  have hinside := t.inside_isArgument
  rw [h] at hinside
  exact List.all_eq_true.mp hinside

theorem exists_text_cons (t : TypeToken) : ∃ c cs, t.text = c :: cs ∧ isHead c = true := by
  obtain ⟨c, cs, hhead, hc, -⟩ := exists_of_isName t.head_isName
  exact ⟨c, cs ++ (t.argumentText ++ t.mark), by rw [text, hhead]; rfl, hc⟩

end TypeToken

/-- A text can follow a type token: the token could not go on into it. -/
structure EndsType (rest : List Char) : Prop where
  head : ∀ c, rest.head? = some c → isTypeChar c = false ∧ c ≠ '?'
  noArguments : ∀ cs, skipBlanks rest ≠ '<' :: cs

theorem readArguments?_none {rest : List Char} (h : ∀ cs, skipBlanks rest ≠ '<' :: cs) :
    readArguments? rest = none := by
  unfold readArguments?
  split
  · rename_i cs hskip
    exact absurd hskip (h cs)
  · rfl

theorem readArguments?_group {gap inside rest : List Char} (hgap : ∀ c ∈ gap, isBlank c = true)
    (hinside : ∀ c ∈ inside, isArgumentChar c = true) :
    readArguments? (gap ++ '<' :: (inside ++ '>' :: rest))
      = some ⟨gap ++ '<' :: (inside ++ ['>']), rest⟩ := by
  have hskip : skipBlanks (gap ++ '<' :: (inside ++ '>' :: rest))
      = '<' :: (inside ++ '>' :: rest) :=
    dropWhile_append_stop hgap (by rintro c ⟨rfl⟩; decide)
  have hstop : ∀ c, ('>' :: rest).head? = some c → isArgumentChar c = false := by
    rintro c ⟨rfl⟩
    decide
  unfold readArguments?
  rw [hskip]
  simp only [dropWhile_append_stop hinside hstop, takeWhile_append_stop hinside hstop]
  rw [takeWhile_append_stop hgap (by rintro c ⟨rfl⟩; decide), List.append_assoc]
  rfl

theorem readNullable_mark {t : TypeToken} {rest : List Char}
    (h : ∀ c, rest.head? = some c → c ≠ '?') :
    readNullable (t.mark ++ rest) = ⟨t.mark, rest⟩ := by
  unfold TypeToken.mark
  split
  · rfl
  · rw [List.nil_append]
    unfold readNullable
    split
    · rename_i cs
      exact absurd rfl (h '?' rfl)
    · rfl

/-- What follows the head of a type could not continue it. -/
theorem isTypeChar_after_head (t : TypeToken) {rest : List Char}
    (h : ∀ c, rest.head? = some c → isTypeChar c = false) {c : Char}
    (hc : (t.argumentText ++ (t.mark ++ rest)).head? = some c) : isTypeChar c = false := by
  unfold TypeToken.argumentText TypeToken.mark at hc
  cases hargs : t.arguments? with
  | none =>
      cases hnull : t.nullable with
      | true =>
          simp only [hargs, hnull, if_true] at hc
          cases hc
          decide
      | false =>
          simp only [hargs, hnull] at hc
          exact h c hc
  | some a =>
      obtain ⟨gap, inside⟩ := a
      simp only [hargs] at hc
      cases gap with
      | nil => cases hc; decide
      | cons b gap =>
          cases hc
          have hb : isBlank c = true := TypeToken.isBlank_of_mem_gap hargs c (by simp)
          rw [isTypeChar, isIdentifierChar_of_isBlank hb, Bool.false_or, beq_eq_false_iff_ne]
          rintro rfl
          exact absurd hb (by decide)

/-- **A type token is read back as it is written.** -/
theorem readType?_append (t : TypeToken) {rest : List Char} (h : EndsType rest) :
    readType? (t.text ++ rest) = some ⟨t.text, rest⟩ := by
  have hmark : readNullable (t.mark ++ rest) = ⟨t.mark, rest⟩ :=
    readNullable_mark fun c hc => (h.head c hc).2
  have harguments : (readArguments? (t.argumentText ++ (t.mark ++ rest))).getD
      ⟨[], t.argumentText ++ (t.mark ++ rest)⟩ = ⟨t.argumentText, t.mark ++ rest⟩ := by
    unfold TypeToken.argumentText
    cases hargs : t.arguments? with
    | none =>
        simp only [List.nil_append]
        rw [readArguments?_none ?_, Option.getD_none]
        intro cs
        unfold TypeToken.mark
        split
        · rw [List.singleton_append, skipBlanks_cons (by decide)]
          simp
        · exact h.noArguments cs
    | some a =>
        obtain ⟨gap, inside⟩ := a
        simp only [List.append_assoc, List.cons_append, List.nil_append]
        rw [readArguments?_group (TypeToken.isBlank_of_mem_gap hargs)
          (TypeToken.isArgumentChar_of_mem_inside hargs)]
        rfl
  have hhead : readName? isTypeChar (t.head ++ (t.argumentText ++ (t.mark ++ rest)))
      = some ⟨t.head, t.argumentText ++ (t.mark ++ rest)⟩ :=
    readName?_append t.head_isName fun c =>
      isTypeChar_after_head t fun d hd => (h.head d hd).1
  have hassoc : t.text ++ rest = t.head ++ (t.argumentText ++ (t.mark ++ rest)) := by
    simp [TypeToken.text]
  rw [hassoc]
  simp only [readType?, hhead, harguments, hmark, Option.bind_eq_bind, Option.bind_some,
    Option.pure_def, TypeToken.text, List.append_assoc]

/-! ### What follows a type in a declaration -/

/-- A closing bracket or a comma ends a type. -/
theorem endsType_mark {c : Char} (hc : c = '>' ∨ c = ',') (rest : List Char) :
    EndsType (c :: rest) where
  head := by
    rintro d ⟨rfl⟩
    rcases hc with rfl | rfl <;> decide
  noArguments cs := by
    have hvisible : isBlank c = false := by rcases hc with rfl | rfl <;> decide
    rw [skipBlanks_cons hvisible]
    rcases hc with rfl | rfl <;> simp

/-- A name may follow a type after a space. -/
theorem endsType_name {name : List Char} (h : isIdentifier name = true) :
    EndsType (' ' :: name) where
  head := by
    rintro c ⟨rfl⟩
    decide
  noArguments cs := by
    obtain ⟨c, rest, rfl, hhead, -⟩ := exists_of_isName h
    rw [skipBlanks_cons_blank (by decide), skipBlanks_cons (isBlank_of_isHead hhead)]
    rintro ⟨rfl⟩
    exact absurd hhead (by decide)

end UseCases.Dart
