/-
What the reader of a parameter list has read.

The text between two parentheses may be anything: brackets that nothing closes, literals that run
to the end, groups inside groups.  A parameter that is accepted out of it is well formed all the
same, because each of its parts is what a reader of tokens returned or an entry that is cut
nowhere.  And because every reader goes on where the one before it stopped, the parts of all
accepted parameters stand in the text in the order in which they are listed.
-/
import UseCases.Proofs.Dart.Cut
import UseCases.Proofs.Dart.Enclosing
import UseCases.Proofs.Dart.Reading
import UseCases.Proofs.Declaration.Parameter

namespace UseCases.Declaration

open Dart Text

/-! ### Well-formed parameters -/

/-- The text is a type token, without white space around it. -/
structure IsType (text : List Char) : Prop where
  token : ∃ t : TypeToken, text = t.text
  trimmed : trim text = text

/-- A default that stays one entry in a list: there is something in it, no white space around
it, and no comma that a list would be cut at. -/
structure IsValue (text : List Char) : Prop where
  nonempty : text ≠ []
  trimmed : trim text = text
  uncut : splitTopLevel ',' text = [text]

/-- A parameter whose parts can be written down again. -/
structure IsWellFormed (p : Parameter) : Prop where
  type : IsType p.type.toList
  name : isIdentifier p.name.toList = true
  default : ∀ value ∈ p.default, IsValue value.toList

/-- The parts of a parameter that are taken from its entry, in the order of the entry. -/
def Parameter.parts (p : Parameter) : List (List Char) :=
  [p.type.toList, p.name.toList] ++ (p.default.map String.toList).toList

theorem isType_text (t : TypeToken) : IsType t.text :=
  ⟨⟨t, rfl⟩, trim_type t⟩

/-! ### One entry -/

theorem afterKeyword?_suffix {keyword : String} {text rest : List Char}
    (h : afterKeyword? keyword text = some rest) : rest <:+ text := by
  obtain ⟨middle, hafter, hskip⟩ := Option.bind_eq_some_iff.mp h
  obtain ⟨blanks, -, -, rfl⟩ := skipSomeBlanks?_split hskip
  exact (List.suffix_append blanks rest).trans (after?_suffix hafter)

theorem takeRequired_suffix (kind : ParameterKind) (declaration : List Char) :
    (takeRequired kind declaration).1 <:+ declaration := by
  unfold takeRequired
  split
  · split
    · rename_i rest hkeyword
      exact afterKeyword?_suffix hkeyword
    · exact List.suffix_refl declaration
  · exact List.suffix_refl declaration

/-- Taking `required` off leaves a parameter in the group that it was found in. -/
theorem groupKind_takeRequired (kind : ParameterKind) (declaration : List Char) :
    groupKind (takeRequired kind declaration).2 = groupKind kind := by
  unfold takeRequired
  split
  · rename_i hnamed
    split
    · rw [hnamed]
      rfl
    · rfl
  · rfl

theorem dropModifier_suffix (declaration : List Char) :
    dropModifier declaration <:+ declaration := by
  unfold dropModifier
  cases hfinal : afterKeyword? "final" declaration with
  | some rest => exact afterKeyword?_suffix hfinal
  | none =>
      cases hcovariant : afterKeyword? "covariant" declaration with
      | some rest => exact afterKeyword?_suffix hcovariant
      | none => exact List.suffix_refl declaration

theorem typeAndName?_split {declaration type name : List Char}
    (h : typeAndName? declaration = some (type, name)) :
    IsType type ∧ isIdentifier name = true ∧ InOrder [type, name] declaration := by
  simp only [typeAndName?, Option.bind_eq_bind, Option.bind_eq_some_iff,
    Option.ite_none_right_eq_some, List.isEmpty_iff, Option.some.injEq, Prod.mk.injEq] at h
  obtain ⟨lexeme, htype, text, hskip, identifier, hname, hend, rfl, rfl⟩ := h
  obtain ⟨t, htoken, hdeclaration⟩ := readType?_split htype
  obtain ⟨blanks, -, -, hrest⟩ := skipSomeBlanks?_split hskip
  obtain ⟨hidentifier, htext⟩ := readName?_split hname
  refine ⟨htoken ▸ isType_text t, hidentifier, ?_⟩
  rw [hdeclaration, hrest, htext, hend, htoken]
  exact InOrder.cons [] t.text (InOrder.cons blanks identifier.token (InOrder.nil []))

/-- The declaration of an entry and its default stand in the entry in this order. -/
theorem cutDefault_inOrder {parts : List (List Char)} {entry : List Char}
    (h : InOrder parts (cutDefault entry).1) :
    InOrder (parts ++ (cutDefault entry).2.toList) entry := by
  unfold cutDefault at h ⊢
  cases hcut : cut? (· == '=') entry with
  | none =>
      rw [hcut] at h
      simpa using h
  | some cut =>
      simp only [hcut] at h
      obtain ⟨hentry, -⟩ := cutFrom?_split hcut
      rw [hentry]
      refine (h.within (infix_trim cut.before)).append ?_
      exact ((InOrder.singleton (trim cut.after)).within (infix_trim cut.after)).prepend [cut.mark]

/-- A default is a part of its entry, so it is cut nowhere if its entry is not. -/
theorem cutDefault_value {entry value : List Char} (hentry : cut? (· == ',') entry = none)
    (hvalue : (cutDefault entry).2 = some value) (hne : value ≠ []) : IsValue value := by
  unfold cutDefault at hvalue
  split at hvalue
  · rename_i cut hcut
    cases hvalue
    have hflat : ∀ c : Char, (c == '=') = true → isFlat c = true :=
      fun c hc => isFlat_of_forall (p := (· == '=')) (by decide) hc
    have hafter : cut? (· == ',') cut.after = none := cut?_after_eq_none hflat hcut hentry
    exact ⟨hne, trim_trim cut.after,
      splitTopLevel_eq_singleton hne (trim_trim cut.after) (cut?_trim_eq_none hafter)⟩
  · cases hvalue

/-- **An accepted entry is a well-formed parameter**, of the group it was found in, and its parts
stand in the entry in their order. -/
theorem readParameter?_sound {kind : ParameterKind} {entry : List Char} {p : Parameter}
    (h : readParameter? kind entry = some p) (hentry : cut? (· == ',') entry = none) :
    IsWellFormed p ∧ groupKind p.kind = groupKind kind ∧ InOrder p.parts entry := by
  rcases hcut : cutDefault entry with ⟨declaration, value⟩
  rcases hrequired : takeRequired kind declaration with ⟨rest, kind'⟩
  simp only [readParameter?, hcut, hrequired, Option.bind_eq_bind, Option.bind_eq_some_iff,
    Option.pure_def, Option.some.injEq] at h
  obtain ⟨⟨type, name⟩, hpair, rfl⟩ := h
  obtain ⟨htype, hname, horder⟩ := typeAndName?_split hpair
  have hsuffix := takeRequired_suffix kind declaration
  have hkind := groupKind_takeRequired kind declaration
  rw [hrequired] at hsuffix hkind
  have hdeclaration : InOrder [type, name] declaration :=
    ((horder.within (dropModifier_suffix _).isInfix).within (infix_trim rest)).within
      hsuffix.isInfix
  have hparts : InOrder ([type, name] ++ value.toList) entry := by
    have hboth : InOrder [type, name] (cutDefault entry).1 →
        InOrder ([type, name] ++ (cutDefault entry).2.toList) entry := cutDefault_inOrder
    rw [hcut] at hboth
    exact hboth hdeclaration
  refine ⟨⟨?_, ?_, ?_⟩, hkind, ?_⟩
  · rwa [String.toList_ofList]
  · rwa [String.toList_ofList]
  · intro text htext
    obtain ⟨v, hv, rfl⟩ := Option.map_eq_some_iff.mp htext
    obtain ⟨hvalue, hne⟩ := Option.filter_eq_some_iff.mp hv
    rw [String.toList_ofList]
    exact cutDefault_value hentry (by rw [hcut, hvalue]) (by simpa using hne)
  · refine hparts.sublist ?_
    rw [Parameter.parts, String.toList_ofList, String.toList_ofList]
    refine List.Sublist.append_left ?_ [type, name]
    cases value with
    | none => exact List.Sublist.refl []
    | some v => cases v <;> simp [Option.filter]

/-! ### A list of entries -/

theorem accepted_append (es fs : List Entry) : accepted (es ++ fs) = accepted es ++ accepted fs :=
  List.filterMap_append

/-- The accepted entries are the ones that read as parameters. -/
theorem accepted_readEntries (kind : ParameterKind) (text : List Char) :
    accepted (readEntries kind text)
      = (splitTopLevel ',' text).filterMap (readParameter? kind) := by
  rw [accepted, readEntries, List.filterMap_map]
  refine List.filterMap_congr fun entry _ => ?_
  rw [Function.comp_apply, Entry.read]
  cases readParameter? kind entry <;> rfl

theorem readEntries_sound {kind : ParameterKind} {text : List Char} {p : Parameter}
    (h : p ∈ accepted (readEntries kind text)) :
    IsWellFormed p ∧ groupKind p.kind = groupKind kind := by
  rw [accepted_readEntries] at h
  obtain ⟨entry, hentry, hread⟩ := List.mem_filterMap.mp h
  obtain ⟨hformed, hkind, -⟩ := readParameter?_sound hread (entry_of_mem_splitTopLevel hentry).2.2
  exact ⟨hformed, hkind⟩

theorem readEntries_inOrder (kind : ParameterKind) (text : List Char) :
    InOrder ((accepted (readEntries kind text)).flatMap Parameter.parts) text := by
  have hparts : (accepted (readEntries kind text)).flatMap Parameter.parts
      = (splitTopLevel ',' text).flatMap fun entry =>
          (readParameter? kind entry).toList.flatMap Parameter.parts := by
    rw [accepted_readEntries, List.filterMap_eq_flatMap_toList, List.flatMap_assoc]
  rw [hparts]
  refine (splitTopLevel_inOrder ',' text).flatMap fun entry hentry => ?_
  cases hread : readParameter? kind entry with
  | none => exact InOrder.nil entry
  | some p =>
      obtain ⟨-, -, horder⟩ := readParameter?_sound hread (entry_of_mem_splitTopLevel hentry).2.2
      simpa using horder

/-! ### The parts of a list -/

theorem ofList_uncut {text : List Char}
    (h : cut? (fun c => c == '\x7b' || c == '[') text = none) :
    ParameterText.ofList text = ⟨text, none⟩ := by
  rw [ParameterText.ofList, h]

/-- A group is read up to its closing bracket, or else to the end. -/
theorem ofList_cut {text : List Char} {cut : Cut}
    (h : cut? (fun c => c == '\x7b' || c == '[') text = some cut) :
    ParameterText.ofList text = ⟨cut.before, some
      (((enclosed? cut.mark (groupOf cut.mark).1 cut.after).map Enclosed.inside).getD cut.after,
        (groupOf cut.mark).2)⟩ := by
  rw [ParameterText.ofList, h]
  cases henclosed : enclosed? cut.mark (groupOf cut.mark).1 cut.after <;> simp [henclosed]

/-- A list starts with its positional part, and its group lies in what follows. -/
theorem ofList_split (text : List Char) :
    ∃ rest, text = (ParameterText.ofList text).positional ++ rest ∧
      ∀ g ∈ (ParameterText.ofList text).group, g.1 <:+: rest := by
  cases hcut : cut? (fun c => c == '\x7b' || c == '[') text with
  | none =>
      rw [ofList_uncut hcut]
      exact ⟨[], (List.append_nil text).symm, by simp⟩
  | some cut =>
      obtain ⟨htext, -⟩ := cutFrom?_split hcut
      rw [ofList_cut hcut]
      refine ⟨cut.mark :: cut.after, htext, fun g hg => ?_⟩
      rw [← Option.mem_some_iff.mp hg]
      refine List.IsInfix.trans ?_ (List.suffix_cons cut.mark cut.after).isInfix
      cases henclosed : enclosed? cut.mark (groupOf cut.mark).1 cut.after with
      | none => exact List.infix_refl cut.after
      | some e =>
          have hafter := (List.prefix_append e.inside ((groupOf cut.mark).1 :: e.after)).isInfix
          rwa [← enclosed?_split henclosed] at hafter

theorem ofList_group {text : List Char} {g : List Char × ParameterKind}
    (h : g ∈ (ParameterText.ofList text).group) : g.2 = .named ∨ g.2 = .optionalPositional := by
  cases hcut : cut? (fun c => c == '\x7b' || c == '[') text with
  | none =>
      rw [ofList_uncut hcut] at h
      cases h
  | some cut =>
      rw [ofList_cut hcut] at h
      rw [← Option.mem_some_iff.mp h]
      unfold groupOf
      split
      · exact Or.inl rfl
      · exact Or.inr rfl

/-- What the group of a list contributes to its entries. -/
theorem accepted_entries (text : List Char) :
    accepted (entries text)
      = accepted (readEntries .positional (ParameterText.ofList text).positional)
        ++ (ParameterText.ofList text).group.elim [] fun g => accepted (readEntries g.2 g.1) := by
  rw [entries, accepted_append]
  cases (ParameterText.ofList text).group <;> rfl

/-- Positional parameters, then the parameters of one group. -/
def IsGrouped (ps : List Parameter) : Prop :=
  ∃ positional group, ps = positional ++ group ∧ (∀ p ∈ positional, p.kind = .positional) ∧
    ((∀ p ∈ group, p.kind = .optionalPositional) ∨ ∀ p ∈ group, p.kind.isNamed = true)

theorem eq_of_groupKind {kind group : ParameterKind} (h : groupKind kind = groupKind group)
    (hgroup : group ≠ .named) (hrequired : group ≠ .requiredNamed) : kind = group := by
  cases kind <;> cases group <;> simp_all [groupKind]

/-- **A list is positional parameters and one group**, whatever its text was. -/
theorem entries_grouped (text : List Char) : IsGrouped (accepted (entries text)) := by
  refine ⟨_, _, accepted_entries text, fun p hp => ?_, ?_⟩
  · exact eq_of_groupKind (readEntries_sound hp).2 (by decide) (by decide)
  · cases hgroup : (ParameterText.ofList text).group with
    | none => exact Or.inl (by simp)
    | some g =>
        obtain ⟨inside, kind⟩ := g
        rcases ofList_group hgroup with hkind | hkind
        · cases hkind
          refine Or.inr fun p hp => ?_
          have hnamed := (readEntries_sound hp).2
          cases hp : p.kind <;> simp_all [groupKind, ParameterKind.isNamed]
        · cases hkind
          exact Or.inl fun p hp => eq_of_groupKind (readEntries_sound hp).2 (by decide) (by decide)

theorem isWellFormed_of_mem_entries {text : List Char} {p : Parameter}
    (h : p ∈ accepted (entries text)) : IsWellFormed p := by
  rw [accepted_entries, List.mem_append] at h
  rcases h with h | h
  · exact (readEntries_sound h).1
  · cases hgroup : (ParameterText.ofList text).group with
    | none =>
        rw [hgroup] at h
        cases h
    | some g =>
        rw [hgroup] at h
        exact (readEntries_sound h).1

/-- **The parts of the accepted parameters stand in the text in their order.** -/
theorem entries_inOrder (text : List Char) :
    InOrder ((accepted (entries text)).flatMap Parameter.parts) text := by
  obtain ⟨rest, htext, hwithin⟩ := ofList_split text
  have hgroup : InOrder (((ParameterText.ofList text).group.elim [] fun g =>
      accepted (readEntries g.2 g.1)).flatMap Parameter.parts) rest := by
    cases hg : (ParameterText.ofList text).group with
    | none => exact InOrder.nil rest
    | some g => exact (readEntries_inOrder g.2 g.1).within (hwithin g hg)
  have hboth :=
    (readEntries_inOrder .positional (ParameterText.ofList text).positional).append hgroup
  rwa [← htext, ← List.flatMap_append, ← accepted_entries] at hboth

end UseCases.Declaration
