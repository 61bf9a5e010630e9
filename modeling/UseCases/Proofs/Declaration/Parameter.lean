/-
One parameter, written and read back.

A parameter is written as its signature (`required`, type and name) with an optional default.
Its reader cuts the default off at the first `=`, so the signature must not contain one outside
brackets, and it takes a leading keyword off, so the head of the type must not be one.
-/
import Mathlib.Data.List.Basic
import UseCases.Declaration.ParameterList
import UseCases.Proofs.Dart.Nesting
import UseCases.Proofs.Dart.Token

namespace UseCases.Declaration

open Dart Text

/-! ### Characters of signatures -/

/-- A character that stands outside the brackets of a signature. -/
def isSignatureChar (c : Char) : Bool :=
  isTypeChar c || isBlank c || c == '<' || c == '?'

theorem isFlat_of_isTypeChar {c : Char} (h : isTypeChar c = true) : isFlat c = true :=
  isFlat_of_forall (by decide) h

theorem isFlat_of_isBlank {c : Char} (h : isBlank c = true) : isFlat c = true :=
  isFlat_of_forall (by decide) h

/-- A text does not contain the characters that all of its own differ from. -/
theorem ne_of_forall {p : Char → Bool} {c d : Char} (h : p c = true) (hd : p d = false) :
    c ≠ d := by
  rintro rfl
  rw [h] at hd
  cases hd

/-! ### Types -/

/-- A character of a type that stands on one line and holds no literal and no comment. -/
def isQuietChar (c : Char) : Bool :=
  !isQuote c && c != '/' && c != '\n'

theorem isQuietChar_of_isTypeChar {c : Char} (h : isTypeChar c = true) : isQuietChar c = true := by
  have hflat := isFlat_of_isTypeChar h
  simp only [isFlat, Bool.and_eq_true] at hflat
  simp only [isQuietChar, Bool.and_eq_true, bne_iff_ne]
  exact ⟨⟨hflat.2, ne_of_forall h (by decide)⟩, ne_of_forall h (by decide)⟩

/-- The type holds no quotes, slashes and newlines. -/
def isQuietType (t : TypeToken) : Bool :=
  t.argumentText.all isQuietChar

theorem isTypeChar_of_mem_head (t : TypeToken) {c : Char} (h : c ∈ t.head) : isTypeChar c = true :=
  forall_mem_of_isName (fun _ hd => isTypeChar_of_isIdentifierChar (isIdentifierChar_of_isHead hd))
    t.head_isName c h

theorem isQuietChar_of_mem_type {t : TypeToken} (h : isQuietType t = true) :
    ∀ c ∈ t.text, isQuietChar c = true := by
  intro c hc
  rcases List.mem_append.mp hc with hc | hc
  · exact isQuietChar_of_isTypeChar (isTypeChar_of_mem_head t hc)
  · rcases List.mem_append.mp hc with hc | hc
    · exact List.all_eq_true.mp h c hc
    · unfold TypeToken.mark at hc
      split at hc
      · rw [List.mem_singleton.mp hc]
        decide
      · cases hc

/-- The brackets of the type are closed in it. -/
def isNestedType (t : TypeToken) : Bool :=
  t.arguments?.all fun a => isNested (fun _ => true) a.2

theorem isNested_type {t : TypeToken} (h : isNestedType t = true) :
    isNested isSignatureChar t.text = true := by
  have hhead : isNested isSignatureChar t.head = true := by
    refine isNested_flat fun c hc => ?_
    have htype : isTypeChar c = true := isTypeChar_of_mem_head t hc
    exact ⟨isFlat_of_isTypeChar htype, by simp [isSignatureChar, htype]⟩
  have harguments : isNested isSignatureChar t.argumentText = true := by
    unfold TypeToken.argumentText
    cases hargs : t.arguments? with
    | none => rfl
    | some a =>
        obtain ⟨gap, inside⟩ := a
        have hinside : isNested (fun _ => true) inside = true := by
          simpa [isNestedType, hargs] using h
        refine isNested_append (isNested_flat fun c hc => ?_) ?_
        · have hblank : isBlank c = true := TypeToken.isBlank_of_mem_gap hargs c hc
          exact ⟨isFlat_of_isBlank hblank, by simp [isSignatureChar, hblank]⟩
        · exact isNested_group '<' (by decide) (by decide) hinside
  have hmark : isNested isSignatureChar t.mark = true := by
    unfold TypeToken.mark
    split <;> rfl
  exact isNested_append hhead (isNested_append harguments hmark)

/-! ### Defaults -/

/-- A default that a declaration can state: its literals and brackets are closed, and no comma
or comment marker stands outside them. -/
structure IsDefault (value : List Char) : Prop where
  nonempty : value ≠ []
  trimmed : trim value = value
  oneLine : '\n' ∉ value
  nested : isNested (· != ',') value = true
  uncommented : isUncommented .outside value = true

/-! ### Parameters -/

/-- The words that a reader takes off the front of a parameter. -/
def modifiers : List (List Char) :=
  ["required".toList, "final".toList, "covariant".toList]

/-- A parameter that a declaration can state. -/
structure IsParameter (p : Parameter) : Prop where
  name : isIdentifier p.name.toList = true
  type : ∃ t : TypeToken, p.type.toList = t.text ∧ isQuietType t = true ∧
    isNestedType t = true ∧ t.head ∉ modifiers
  default : ∀ value ∈ p.default, IsDefault value.toList

/-- A parameter that a reader finds its parts in: its signature can be stated, and a default is
there and trimmed.  What else stands in a default is the matter of the list around it. -/
structure IsReadable (p : Parameter) : Prop where
  name : isIdentifier p.name.toList = true
  type : ∃ t : TypeToken, p.type.toList = t.text ∧ isQuietType t = true ∧
    isNestedType t = true ∧ t.head ∉ modifiers
  default : ∀ value ∈ p.default, value.toList ≠ [] ∧ trim value.toList = value.toList

theorem IsParameter.isReadable {p : Parameter} (h : IsParameter p) : IsReadable p :=
  ⟨h.name, h.type, fun value hvalue =>
    ⟨(h.default value hvalue).nonempty, (h.default value hvalue).trimmed⟩⟩

/-- A parameter without its default. -/
def signature (p : Parameter) : List Char :=
  (if p.kind = .requiredNamed then "required ".toList else []) ++ p.type.toList
    ++ ' ' :: p.name.toList

theorem toList_declaration (p : Parameter) :
    p.declaration.toList = signature p ++
      match p.default with
      | some value => " = ".toList ++ value.toList
      | none => [] := by
  unfold Parameter.declaration signature
  cases p.default <;> split <;> simp [String.toList_append]

/-- A signature starts with a character that is no blank. -/
theorem isBlank_of_head_signature {p : Parameter} (h : IsReadable p) {c : Char}
    (hc : (signature p).head? = some c) : isBlank c = false := by
  obtain ⟨t, htype, -⟩ := h.type
  obtain ⟨d, ds, htext, hd⟩ := t.exists_text_cons
  unfold signature at hc
  rw [htype, htext] at hc
  split at hc
  · cases hc
    decide
  · cases hc
    exact isBlank_of_isHead hd

theorem signature_ne_nil (p : Parameter) : signature p ≠ [] :=
  List.append_ne_nil_of_right_ne_nil _ (List.cons_ne_nil _ _)

theorem trim_signature {p : Parameter} (h : IsReadable p) : trim (signature p) = signature p := by
  obtain ⟨c, cs, hname, -, -⟩ := exists_of_isName h.name
  refine trim_eq_self (fun d => isBlank_of_head_signature h) fun d hd => ?_
  unfold signature at hd
  rw [hname, List.getLast?_append_cons, List.getLast?_cons_cons, ← hname] at hd
  exact isBlank_of_isIdentifierChar (forall_mem_identifier h.name d (List.mem_of_getLast? hd))

theorem isNested_signature {p : Parameter} (h : IsReadable p) :
    isNested isSignatureChar (signature p) = true := by
  obtain ⟨t, htype, -, hnested, -⟩ := h.type
  unfold signature
  refine isNested_append (isNested_append ?_ ?_) (isNested_flat fun c hc => ?_)
  · split
    · decide
    · rfl
  · rw [htype]
    exact isNested_type hnested
  · rcases List.mem_cons.mp hc with rfl | hc
    · decide
    · have htypeChar := isTypeChar_of_isIdentifierChar (forall_mem_identifier h.name c hc)
      exact ⟨isFlat_of_isTypeChar htypeChar, by simp [isSignatureChar, htypeChar]⟩

/-! ### Reading a parameter -/

theorem typeAndName?_append (t : TypeToken) {name : List Char} (h : isIdentifier name = true) :
    typeAndName? (t.text ++ ' ' :: name) = some (t.text, name) := by
  obtain ⟨c, cs, hname, hhead, -⟩ := exists_of_isName h
  have hskip : skipBlanks name = name := by
    rw [hname, skipBlanks_cons (isBlank_of_isHead hhead)]
  have hread : readIdentifier? name = some ⟨name, []⟩ := by
    simpa using readIdentifier?_append h (show ∀ c, ([] : List Char).head? = some c → _ by simp)
  simp [typeAndName?, readType?_append t (endsType_name h), skipSomeBlanks?, hskip, hread,
    show isBlank ' ' = true by decide]

/-- A type does not start with a keyword that is not its head. -/
theorem afterKeyword?_type (t : TypeToken) {name : List Char} {keyword : String}
    (hkeyword : keyword.toList.all isTypeChar = true) (hhead : t.head ≠ keyword.toList) :
    afterKeyword? keyword (t.text ++ ' ' :: name) = none := by
  unfold afterKeyword?
  cases hafter : after? keyword.toList (t.text ++ ' ' :: name) with
  | none => rfl
  | some rest =>
      rw [Option.bind_some]
      cases rest with
      | nil => rfl
      | cons c cs =>
          rw [skipSomeBlanks?, if_neg]
          intro hblank
          -- The keyword would then be the longest start of the text without a blank.
          have htext := after?_eq_some.mp hafter
          have hstop : isTypeChar c = false := by
            rw [isTypeChar, isIdentifierChar_of_isBlank hblank, Bool.false_or, beq_eq_false_iff_ne]
            rintro rfl
            exact absurd hblank (by decide)
          have hleft : (t.text ++ ' ' :: name).takeWhile isTypeChar = t.head := by
            rw [TypeToken.text, List.append_assoc, List.append_assoc]
            refine takeWhile_append_stop (fun d => isTypeChar_of_mem_head t) fun d hd => ?_
            exact isTypeChar_after_head t (by rintro e ⟨rfl⟩; decide) hd
          have hright : (keyword.toList ++ c :: cs).takeWhile isTypeChar = keyword.toList :=
            takeWhile_append_stop (List.all_eq_true.mp hkeyword) (by rintro d ⟨rfl⟩; exact hstop)
          rw [htext, hright] at hleft
          exact hhead hleft.symm

/-- The kind that the group of a parameter declares. -/
def groupKind : ParameterKind → ParameterKind
  | .requiredNamed => .named
  | kind => kind

theorem cutDefault_declaration {p : Parameter} (h : IsReadable p) :
    cutDefault p.declaration.toList = (signature p, p.default.map String.toList) := by
  have hbare : ∀ c, isSignatureChar c = true → (c == '=') = false := fun c hc => by
    simpa using ne_of_forall hc (d := '=') (by decide)
  rw [toList_declaration]
  cases hdefault : p.default with
  | none =>
      simp [cutDefault, cut?_nested hbare (isNested_signature h)]
  | some value =>
      have htrimmed := (h.default value hdefault).2
      have hgap : isNested isSignatureChar (signature p ++ [' ']) = true :=
        isNested_append (isNested_signature h) rfl
      have hcut : cut? (· == '=') (signature p ++ (" = ".toList ++ value.toList))
          = some ⟨signature p ++ [' '], '=', ' ' :: value.toList⟩ := by
        have hmark := cut?_nested_mark hbare hgap '=' (by decide) rfl (' ' :: value.toList)
        simpa using hmark
      simp only [cutDefault, hcut]
      rw [trim_append_blank (by decide), trim_signature h, trim_cons_blank (by decide),
        htrimmed]
      rfl

theorem takeRequired_signature {p : Parameter} (h : IsReadable p) :
    takeRequired (groupKind p.kind) (signature p)
      = (p.type.toList ++ ' ' :: p.name.toList, p.kind) := by
  obtain ⟨t, htype, -, -, hhead⟩ := h.type
  have hplain : afterKeyword? "required" (p.type.toList ++ ' ' :: p.name.toList) = none := by
    rw [htype]
    exact afterKeyword?_type t (by decide) fun he => hhead (by simp [modifiers, he])
  have hrequired : afterKeyword? "required"
      ("required ".toList ++ p.type.toList ++ ' ' :: p.name.toList)
        = some (p.type.toList ++ ' ' :: p.name.toList) := by
    obtain ⟨c, cs, htext, hc⟩ := t.exists_text_cons
    have hafter : after? "required".toList
        ("required".toList ++ (' ' :: (p.type.toList ++ ' ' :: p.name.toList)))
          = some (' ' :: (p.type.toList ++ ' ' :: p.name.toList)) := after?_append _ _
    have hskip : skipBlanks (p.type.toList ++ ' ' :: p.name.toList)
        = p.type.toList ++ ' ' :: p.name.toList := by
      rw [htype, htext, List.cons_append, skipBlanks_cons (isBlank_of_isHead hc)]
    unfold afterKeyword?
    rw [show "required ".toList ++ p.type.toList ++ ' ' :: p.name.toList
        = "required".toList ++ (' ' :: (p.type.toList ++ ' ' :: p.name.toList)) by simp, hafter,
      Option.bind_some, skipSomeBlanks?, if_pos (by decide), hskip]
  unfold signature takeRequired
  cases hkind : p.kind with
  | positional => simp [groupKind]
  | optionalPositional => simp [groupKind]
  | named => simp [groupKind, hplain]
  | requiredNamed =>
      simp only [groupKind, if_true, hrequired]

theorem dropModifier_type {p : Parameter} (h : IsReadable p) :
    dropModifier (p.type.toList ++ ' ' :: p.name.toList)
      = p.type.toList ++ ' ' :: p.name.toList := by
  obtain ⟨t, htype, -, -, hhead⟩ := h.type
  unfold dropModifier
  rw [htype, afterKeyword?_type t (by decide) fun he => hhead (by simp [modifiers, he]),
    afterKeyword?_type t (by decide) fun he => hhead (by simp [modifiers, he])]
  rfl

/-- **A parameter is read back as it is written.** -/
theorem read_declaration {p : Parameter} (h : IsReadable p) :
    Entry.read (groupKind p.kind) p.declaration.toList = .accepted p := by
  obtain ⟨t, htype, -⟩ := h.type
  have htrim : trim (p.type.toList ++ ' ' :: p.name.toList)
      = p.type.toList ++ ' ' :: p.name.toList := by
    have hsame := trim_signature (p := { p with kind := .positional }) ⟨h.name, h.type, h.default⟩
    simpa [signature] using hsame
  have hpair : typeAndName? (p.type.toList ++ ' ' :: p.name.toList)
      = some (p.type.toList, p.name.toList) := by
    rw [htype]
    exact typeAndName?_append t h.name
  have hkeep : (p.default.map String.toList).filter (fun v => !v.isEmpty)
      = p.default.map String.toList := by
    cases hdefault : p.default with
    | none => rfl
    | some value =>
        have hnonempty := (h.default value hdefault).1
        simp [Option.filter, hnonempty]
  have hread : readParameter? (groupKind p.kind) p.declaration.toList = some p := by
    simp only [readParameter?, cutDefault_declaration h, takeRequired_signature h, htrim,
      dropModifier_type h, hpair, hkeep, Option.bind_eq_bind, Option.bind_some, Option.pure_def,
      String.ofList_toList, Option.map_map]
    cases p with
    | mk type name kind default => cases default <;> simp
  rw [Entry.read, hread]

end UseCases.Declaration
