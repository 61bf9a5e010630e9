/-
Headers, written and read back.

A declaration that is written as a return type, a space, a name and a parameter list is read
back with the payload of its type.  The one thing its reader may do differently is to take the
line for an error union, when the marker of one stands anywhere in it.
-/
import UseCases.Declaration.Extraction
import UseCases.Proofs.Dart.Nesting
import UseCases.Proofs.Dart.Token

namespace UseCases.Declaration

open Dart Text

/-! ### Markers and return types

Each is spelled out once: what follows never looks into the literals.
-/

theorem futureMarker_eq : futureMarker = ['F', 'u', 't', 'u', 'r', 'e', '<'] := by decide

theorem streamMarker_eq : streamMarker = ['S', 't', 'r', 'e', 'a', 'm', '<'] := by decide

theorem eitherMarker_eq : eitherMarker = ['E', 'i', 't', 'h', 'e', 'r', '<'] := by decide

/-- The name of the union type. -/
def eitherName : List Char := "Either".toList

theorem eitherMarker_eq_name : eitherMarker = eitherName ++ ['<'] := by decide

theorem wrap_plainFuture (payload : String) :
    Shape.plainFuture.wrap payload = "Future<" ++ payload ++ ">" := rfl

theorem wrap_stream (payload : String) :
    Shape.stream.wrap payload = "Stream<" ++ payload ++ ">" := rfl

theorem wrap_errorUnion (payload : String) :
    Shape.errorUnionFuture.wrap payload = "Future<Either<Failure, " ++ payload ++ ">>" := rfl

/-- The line that starts with a declaration. -/
def declarationLine (shape : Shape) (payload : String) (name rest : List Char) : List Char :=
  (shape.wrap payload).toList ++ ' ' :: (name ++ '(' :: rest)

/-! ### The header -/

theorem readMark?_cons {c : Char} (hc : isBlank c = false) (rest : List Char) :
    readMark? c (c :: rest) = some rest := by
  unfold readMark?
  rw [skipBlanks_cons hc]
  simp

theorem finishHeader?_append {payload name : List Char} (h : isIdentifier name = true)
    (rest : List Char) :
    finishHeader? payload ('>' :: ' ' :: (name ++ '(' :: rest)) = some ⟨name, payload, rest⟩ := by
  obtain ⟨c, cs, hname, hhead, -⟩ := exists_of_isName h
  have hskip : skipBlanks (' ' :: (name ++ '(' :: rest)) = name ++ '(' :: rest := by
    rw [skipBlanks_cons_blank (by decide), hname, List.cons_append,
      skipBlanks_cons (isBlank_of_isHead hhead)]
  have hread : readIdentifier? (name ++ '(' :: rest) = some ⟨name, '(' :: rest⟩ :=
    readIdentifier?_append h (by rintro d ⟨rfl⟩; decide)
  simp [finishHeader?, readMark?_cons (c := '>') (by decide), hskip, hread,
    readMark?_cons (c := '(') (by decide)]

theorem skipBlanks_type (t : TypeToken) (rest : List Char) :
    skipBlanks (t.text ++ rest) = t.text ++ rest := by
  obtain ⟨c, cs, htext, hhead⟩ := t.exists_text_cons
  rw [htext, List.cons_append, skipBlanks_cons (isBlank_of_isHead hhead)]

theorem readWrapped?_append (marker : List Char) (t : TypeToken) {name : List Char}
    (h : isIdentifier name = true) (rest : List Char) :
    readWrapped? marker (marker ++ (t.text ++ '>' :: ' ' :: (name ++ '(' :: rest)))
      = some ⟨name, t.text, rest⟩ := by
  simp [readWrapped?, after?_append, skipBlanks_type,
    readType?_append t (endsType_mark (Or.inl rfl) _), finishHeader?_append h]

/-- The left side of an error union, as it is written. -/
def failureType : TypeToken where
  head := ['F', 'a', 'i', 'l', 'u', 'r', 'e']
  arguments? := none
  nullable := false
  head_isName := by decide
  gap_isBlank := by simp
  inside_isArgument := by simp

theorem readErrorUnion?_append (t : TypeToken) {name : List Char} (h : isIdentifier name = true)
    (rest : List Char) :
    readErrorUnion? (futureMarker ++ (eitherMarker ++ (failureType.text ++ ',' :: ' ' ::
        (t.text ++ '>' :: '>' :: ' ' :: (name ++ '(' :: rest)))))
      = some ⟨name, t.text, rest⟩ := by
  have heither : ∀ cs, skipBlanks (eitherMarker ++ cs) = eitherMarker ++ cs := fun cs => by
    rw [eitherMarker_eq]
    exact skipBlanks_cons (by decide)
  have hspace : ∀ cs, skipBlanks (' ' :: (t.text ++ cs)) = t.text ++ cs := fun cs => by
    rw [skipBlanks_cons_blank (by decide), skipBlanks_type]
  simp [readErrorUnion?, after?_append, heither, skipBlanks_type,
    readType?_append failureType (endsType_mark (Or.inr rfl) _),
    readMark?_cons (c := ',') (by decide), hspace,
    readType?_append t (endsType_mark (Or.inl rfl) _), readMark?_cons (c := '>') (by decide),
    finishHeader?_append h]

theorem declarationLine_plainFuture (payload : String) (name rest : List Char) :
    declarationLine .plainFuture payload name rest
      = futureMarker ++ (payload.toList ++ '>' :: ' ' :: (name ++ '(' :: rest)) := by
  rw [declarationLine, wrap_plainFuture, futureMarker_eq]
  simp

theorem declarationLine_stream (payload : String) (name rest : List Char) :
    declarationLine .stream payload name rest
      = streamMarker ++ (payload.toList ++ '>' :: ' ' :: (name ++ '(' :: rest)) := by
  rw [declarationLine, wrap_stream, streamMarker_eq]
  simp

theorem declarationLine_errorUnion (payload : String) (name rest : List Char) :
    declarationLine .errorUnionFuture payload name rest
      = futureMarker ++ (eitherMarker ++ (failureType.text ++ ',' :: ' ' ::
        (payload.toList ++ '>' :: '>' :: ' ' :: (name ++ '(' :: rest)))) := by
  rw [declarationLine, wrap_errorUnion, futureMarker_eq, eitherMarker_eq]
  simp [failureType, TypeToken.text, TypeToken.argumentText, TypeToken.mark]

/-- **The header of a written declaration.** -/
theorem header?_declarationLine (shape : Shape) {payload : String} {t : TypeToken}
    (ht : payload.toList = t.text) {name : List Char} (h : isIdentifier name = true)
    (rest : List Char) :
    header? shape (declarationLine shape payload name rest)
      = some ⟨name, payload.toList, rest⟩ := by
  cases shape with
  | plainFuture =>
      rw [declarationLine_plainFuture, ht]
      exact readWrapped?_append futureMarker t h rest
  | stream =>
      rw [declarationLine_stream, ht]
      exact readWrapped?_append streamMarker t h rest
  | errorUnionFuture =>
      rw [declarationLine_errorUnion, ht]
      have hread := readErrorUnion?_append t h rest
      -- The header starts the line, so the first match is the one at its first character.
      show (readErrorUnion? _).or _ = _
      rw [show ∀ x y : Option Header, x = some ⟨name, t.text, rest⟩ →
        x.or y = some ⟨name, t.text, rest⟩ by rintro x y rfl; rfl]
      exact hread

/-- The shape of a written declaration, unless it carries the marker of another one. -/
theorem classify_declarationLine {shape : Shape} {payload : String} {name rest : List Char}
    (hmarker : shape = .errorUnionFuture ∨
      ¬errorUnionMarker <:+: declarationLine shape payload name rest) :
    classify (declarationLine shape payload name rest) = some shape := by
  unfold classify
  cases shape with
  | errorUnionFuture =>
      rw [if_pos]
      rw [contains_iff, declarationLine_errorUnion, errorUnionMarker, ← List.append_assoc]
      exact (List.prefix_append _ _).isInfix
  | plainFuture =>
      have hnone := hmarker.resolve_left (by simp)
      rw [if_neg (fun hcontains => hnone (contains_iff.mp hcontains)), declarationLine_plainFuture,
        if_pos (startsWith_append _ _)]
  | stream =>
      have hnone := hmarker.resolve_left (by simp)
      rw [if_neg (fun hcontains => hnone (contains_iff.mp hcontains)), declarationLine_stream,
        if_neg ?_, if_pos (startsWith_append _ _)]
      simp [startsWith, futureMarker_eq, streamMarker_eq]

/-! ### The declaration -/

/-- **A written declaration is read back.** -/
theorem readDeclaration_declarationLine (shape : Shape) (number : Nat) {payload : String}
    {t : TypeToken} (ht : payload.toList = t.text) {name : List Char}
    (h : isIdentifier name = true) {inside : List Char} (hinside : IsInline inside)
    (rest : List Char) :
    readDeclaration shape number (declarationLine shape payload name (inside ++ ')' :: rest))
      = .declared
          { name := String.ofList name
            payload
            parameters := accepted (entries inside)
            shape
            line := number }
          (rejected (entries inside)) := by
  have henclosed : enclosed? '(' ')' (inside ++ ')' :: rest) = some ⟨inside, rest⟩ :=
    enclosed?_nested '(' (by decide) hinside.nested rest
  unfold readDeclaration
  rw [header?_declarationLine shape ht h]
  simp only [henclosed, String.ofList_toList]

/-! ### Names -/

theorem isIdentifier_of_finishHeader? {payload text : List Char} {header : Header}
    (h : finishHeader? payload text = some header) : isIdentifier header.name = true := by
  simp only [finishHeader?, Option.bind_eq_bind, Option.bind_eq_some_iff] at h
  obtain ⟨_, -, name, hname, _, -, hheader⟩ := h
  cases hheader
  exact isIdentifier_of_readIdentifier? hname

theorem isIdentifier_of_header? {shape : Shape} {line : List Char} {header : Header}
    (h : header? shape line = some header) : isIdentifier header.name = true := by
  have hwrapped : ∀ marker, readWrapped? marker line = some header →
      isIdentifier header.name = true := by
    intro marker hread
    simp only [readWrapped?, Option.bind_eq_bind, Option.bind_eq_some_iff] at hread
    obtain ⟨_, -, _, -, hfinish⟩ := hread
    exact isIdentifier_of_finishHeader? hfinish
  cases shape with
  | plainFuture => exact hwrapped futureMarker h
  | stream => exact hwrapped streamMarker h
  | errorUnionFuture =>
      obtain ⟨rest, -, hread⟩ := exists_of_firstMatch? h
      simp only [readErrorUnion?, Option.bind_eq_bind, Option.bind_eq_some_iff] at hread
      obtain ⟨_, -, _, -, _, -, _, -, _, -, _, -, hfinish⟩ := hread
      exact isIdentifier_of_finishHeader? hfinish

/-- **The name of a method that a line declares is an identifier.** -/
theorem isIdentifier_of_readDeclaration {shape : Shape} {number : Nat} {line : List Char}
    {m : Method} {dropped : List String}
    (h : readDeclaration shape number line = .declared m dropped) :
    isIdentifier m.name.toList = true := by
  obtain ⟨header, parameters, hheader, -, rfl, -⟩ := readDeclaration_eq_declared_iff.mp h
  rw [String.toList_ofList]
  exact isIdentifier_of_header? hheader

end UseCases.Declaration
