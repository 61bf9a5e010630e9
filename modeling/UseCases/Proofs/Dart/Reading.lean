/-
What the readers of tokens have read.

A reader that succeeds has taken a token of its class off a text, past white space where it skips
any, and what it returns is the token and what follows it.  So whatever the text was, it is now
known to be made of these parts, and the token to be well formed.
-/
import UseCases.Proofs.Dart.Token

namespace UseCases.Dart

open Text

/-! ### Tokens -/

theorem readName?_split {continues : Char → Bool} {text : List Char} {lexeme : Lexeme}
    (h : readName? continues text = some lexeme) :
    isName continues lexeme.token = true ∧ text = lexeme.token ++ lexeme.rest := by
  cases text with
  | nil => cases h
  | cons c cs =>
      rw [readName?] at h
      split at h
      · rename_i hhead
        cases h
        refine ⟨?_, ?_⟩
        · rw [isName, hhead, Bool.true_and, List.all_eq_true]
          exact fun d hd => List.mem_takeWhile_imp hd
        · rw [List.cons_append, List.takeWhile_append_dropWhile]
      · cases h

theorem readArguments?_split {text : List Char} {lexeme : Lexeme}
    (h : readArguments? text = some lexeme) :
    ∃ gap inside, (∀ c ∈ gap, isBlank c = true) ∧ (∀ c ∈ inside, isArgumentChar c = true) ∧
      lexeme.token = gap ++ '<' :: (inside ++ ['>']) ∧ text = lexeme.token ++ lexeme.rest := by
  unfold readArguments? at h
  split at h
  · rename_i cs hskip
    split at h
    · rename_i rest hdrop
      cases h
      have hinside : cs = cs.takeWhile isArgumentChar ++ '>' :: rest := by
        rw [← hdrop, List.takeWhile_append_dropWhile]
      have htext : text = text.takeWhile isBlank ++ '<' :: cs := by
        rw [← hskip, skipBlanks, List.takeWhile_append_dropWhile]
      refine ⟨text.takeWhile isBlank, cs.takeWhile isArgumentChar,
        fun _ => List.mem_takeWhile_imp, fun _ => List.mem_takeWhile_imp, by simp, ?_⟩
      rw [List.append_assoc, List.append_assoc, List.cons_append, List.singleton_append, ← hinside,
        ← htext]
    · cases h
  · cases h

/-- The arguments that may follow the head of a type. -/
theorem readArguments?_getD (text : List Char) :
    ∃ arguments? : Option (List Char × List Char),
      arguments?.all (fun a => a.1.all isBlank) = true ∧
      arguments?.all (fun a => a.2.all isArgumentChar) = true ∧
      ((readArguments? text).getD ⟨[], text⟩).token = (match arguments? with
        | none => []
        | some (gap, inside) => gap ++ '<' :: (inside ++ ['>'])) ∧
      text = ((readArguments? text).getD ⟨[], text⟩).token
        ++ ((readArguments? text).getD ⟨[], text⟩).rest := by
  cases hread : readArguments? text with
  | none => exact ⟨none, rfl, rfl, rfl, rfl⟩
  | some lexeme =>
      obtain ⟨gap, inside, hgap, hinside, htoken, htext⟩ := readArguments?_split hread
      exact ⟨some (gap, inside), List.all_eq_true.mpr hgap, List.all_eq_true.mpr hinside, htoken,
        htext⟩

theorem readNullable_split (text : List Char) :
    ∃ nullable : Bool, (readNullable text).token = (if nullable then ['?'] else []) ∧
      text = (readNullable text).token ++ (readNullable text).rest := by
  unfold readNullable
  split
  · exact ⟨true, rfl, rfl⟩
  · exact ⟨false, rfl, rfl⟩

/-- **What a type reader returns is a type token**, and it stood at the start of the text. -/
theorem readType?_split {text : List Char} {lexeme : Lexeme} (h : readType? text = some lexeme) :
    ∃ t : TypeToken, lexeme.token = t.text ∧ text = t.text ++ lexeme.rest := by
  simp only [readType?, Option.bind_eq_bind, Option.bind_eq_some_iff, Option.pure_def,
    Option.some.injEq] at h
  obtain ⟨head, hhead, rfl⟩ := h
  obtain ⟨hname, htext⟩ := readName?_split hhead
  obtain ⟨arguments?, hgap, hinside, htoken, hrest⟩ := readArguments?_getD head.rest
  obtain ⟨nullable, hmark, hmore⟩ :=
    readNullable_split ((readArguments? head.rest).getD ⟨[], head.rest⟩).rest
  have htype : (TypeToken.mk head.token arguments? nullable hname hgap hinside).text
      = head.token ++ (((readArguments? head.rest).getD ⟨[], head.rest⟩).token
        ++ (readNullable ((readArguments? head.rest).getD ⟨[], head.rest⟩).rest).token) := by
    rw [htoken, hmark]
    cases arguments? <;> rfl
  refine ⟨⟨head.token, arguments?, nullable, hname, hgap, hinside⟩, ?_, ?_⟩
  · rw [htype, List.append_assoc]
  · rw [htype, List.append_assoc, List.append_assoc, ← hmore, ← hrest, ← htext]

theorem isBlank_of_isTypeChar {c : Char} (h : isTypeChar c = true) : isBlank c = false := by
  rcases Bool.or_eq_true_iff.mp h with h | h
  · exact isBlank_of_isIdentifierChar h
  · rw [beq_iff_eq] at h
    subst h
    decide

/-- The last character of a type token is that of its head, a `>` or a question mark. -/
theorem isBlank_of_getLast_type (t : TypeToken) {c : Char} (h : t.text.getLast? = some c) :
    isBlank c = false := by
  unfold TypeToken.text TypeToken.argumentText TypeToken.mark at h
  cases hnull : t.nullable with
  | true =>
      obtain rfl : '?' = c := by simpa [hnull] using h
      decide
  | false =>
      cases hargs : t.arguments? with
      | some a =>
          obtain rfl : '>' = c := by simpa [hnull, hargs, List.getLast?_cons] using h
          decide
      | none =>
          have hlast : t.head.getLast? = some c := by simpa [hnull, hargs] using h
          refine isBlank_of_isTypeChar (forall_mem_of_isName (fun d hd => ?_) t.head_isName c
            (List.mem_of_getLast? hlast))
          exact isTypeChar_of_isIdentifierChar (isIdentifierChar_of_isHead hd)

/-- A type token neither begins nor ends in white space. -/
theorem trim_type (t : TypeToken) : trim t.text = t.text := by
  obtain ⟨c, cs, htext, hhead⟩ := t.exists_text_cons
  refine trim_eq_self (fun d hd => ?_) fun d => isBlank_of_getLast_type t
  rw [htext] at hd
  cases hd
  exact isBlank_of_isHead hhead

/-! ### White space and marks -/

theorem skipSomeBlanks?_split {text rest : List Char} (h : skipSomeBlanks? text = some rest) :
    ∃ blanks, blanks ≠ [] ∧ (∀ c ∈ blanks, isBlank c = true) ∧ text = blanks ++ rest := by
  cases text with
  | nil => cases h
  | cons c cs =>
      rw [skipSomeBlanks?] at h
      split at h
      · rename_i hblank
        cases h
        obtain ⟨blanks, hblanks, hcs⟩ := exists_skipBlanks cs
        refine ⟨c :: blanks, List.cons_ne_nil _ _, ?_, by rw [List.cons_append, ← hcs]⟩
        rintro d (_ | ⟨_, hd⟩)
        · exact hblank
        · exact hblanks d hd
      · cases h

theorem readMark?_split {c : Char} {text rest : List Char} (h : readMark? c text = some rest) :
    ∃ blanks, (∀ d ∈ blanks, isBlank d = true) ∧ text = blanks ++ c :: rest := by
  obtain ⟨blanks, hblanks, htext⟩ := exists_skipBlanks text
  unfold readMark? at h
  split at h
  · cases h
  · rename_i d cs hskip
    split at h
    · rename_i hd
      cases h
      exact ⟨blanks, hblanks, by rw [← hd, ← hskip, ← htext]⟩
    · cases h

end UseCases.Dart
