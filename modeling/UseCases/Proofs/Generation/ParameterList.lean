/-
Parameter lists, written and read back.

A list of parameters is written as the positional ones and at most one group.  Its reader cuts
it at the bracket that opens the group, finds the bracket that closes it, and cuts both parts at
their commas.  All three cuts find what the writer put there, because every declaration
is well nested.
-/
import UseCases.Generation.Unit
import UseCases.Proofs.Declaration.Parameter

namespace UseCases.Generation

open Dart Text Declaration

/-! ### Declarations as entries -/

theorem declaration_ne_nil (p : Parameter) : p.declaration.toList ≠ [] := by
  rw [toList_declaration]
  exact List.append_ne_nil_of_left_ne_nil (signature_ne_nil p) _

theorem trim_declaration {p : Parameter} (h : IsReadable p) :
    trim p.declaration.toList = p.declaration.toList := by
  rw [toList_declaration]
  cases hdefault : p.default with
  | none =>
      rw [List.append_nil]
      exact trim_signature h
  | some value =>
      obtain ⟨hnonempty, htrimmed⟩ := h.default value hdefault
      refine trim_eq_self (fun c hc => ?_) fun c hc => ?_
      · rw [List.head?_append_of_ne_nil _ (signature_ne_nil p)] at hc
        exact isBlank_of_head_signature h hc
      · rw [← List.append_assoc, List.getLast?_append_of_ne_nil _ hnonempty] at hc
        exact isBlank_of_getLast_trimmed htrimmed hc

theorem isEntry_declaration {p : Parameter} (h : IsParameter p) :
    IsEntry ',' p.declaration.toList where
  visible := by
    rw [trim_declaration h.isReadable]
    exact declaration_ne_nil p
  nested := by
    have hsignature : isNested (fun c => c != ',') (signature p) = true :=
      isNested_mono (fun c hc => by simpa using ne_of_forall hc (d := ',') (by decide))
        (isNested_signature h.isReadable)
    rw [toList_declaration]
    cases hdefault : p.default with
    | none =>
        rw [List.append_nil]
        exact hsignature
    | some value =>
        exact isNested_append hsignature
          (isNested_append (by decide) (h.default value hdefault).nested)

theorem isInline_signature {p : Parameter} (h : IsParameter p) : IsInline (signature p) := by
  obtain ⟨t, htype, hquiet, -⟩ := h.type
  have hquietChar : ∀ c ∈ signature p, isQuietChar c = true := by
    intro c hc
    unfold signature at hc
    rcases List.mem_append.mp hc with hc | hc
    · rcases List.mem_append.mp hc with hc | hc
      · split at hc
        · exact List.all_eq_true.mp (by decide : "required ".toList.all isQuietChar = true) c hc
        · cases hc
      · rw [htype] at hc
        exact isQuietChar_of_mem_type hquiet c hc
    · rcases List.mem_cons.mp hc with rfl | hc
      · decide
      · exact isQuietChar_of_isTypeChar
          (isTypeChar_of_isIdentifierChar (forall_mem_identifier h.name c hc))
  refine ⟨isNested_mono (fun _ _ => rfl) (isNested_signature h.isReadable), fun hmem => ?_, ?_⟩
  · exact absurd (hquietChar '\n' hmem) (by decide)
  · refine settled_plain fun c hc => ?_
    have hchar := hquietChar c hc
    simp only [isQuietChar, Bool.and_eq_true, Bool.not_eq_true', bne_iff_ne] at hchar
    exact isPlain_iff.mpr ⟨hchar.1.2, hchar.1.1⟩

theorem isInline_default {value : List Char} (h : IsDefault value) : IsInline value where
  nested := isNested_mono (fun _ _ => rfl) h.nested
  oneLine := h.oneLine
  settled := settled_of_uncommented h.oneLine h.uncommented (after_of_nestedFrom h.nested)

theorem isInline_declaration {p : Parameter} (h : IsParameter p) :
    IsInline p.declaration.toList := by
  rw [toList_declaration]
  cases hdefault : p.default with
  | none =>
      rw [List.append_nil]
      exact isInline_signature h
  | some value =>
      refine (isInline_signature h).append
        (IsInline.flat_append (List.all_eq_true.mp (by decide))
          (isInline_default (h.default value hdefault))) ?_
      rintro c ⟨rfl⟩
      decide

/-! ### The list as text -/

/-- A parameter list that a declaration can state: positional parameters without defaults, then
the parameters of one group. -/
structure IsParameterList (positional group : List Parameter) : Prop where
  positional_kind : ∀ p ∈ positional, p.kind = .positional
  positional_default : ∀ p ∈ positional, p.default = none
  group_kind : (∀ p ∈ group, p.kind = .optionalPositional) ∨ ∀ p ∈ group, p.kind.isNamed = true
  each : ∀ p ∈ positional ++ group, IsParameter p

/-- A list without a group is its declarations. -/
theorem parameterList_positional {ps : List Parameter} (h : ∀ p ∈ ps, p.kind = .positional) :
    parameterList ps = declarations ps := by
  have hpositional : (ps.filter fun p => p.kind == .positional) = ps :=
    List.filter_eq_self.mpr fun p hp => by simp [h p hp]
  have hoptional : (ps.filter fun p => p.kind == .optionalPositional) = [] :=
    List.filter_eq_nil_iff.mpr fun p hp => by simp [h p hp]
  have hnamed : (ps.filter fun p => p.kind.isNamed) = [] :=
    List.filter_eq_nil_iff.mpr fun p hp => by rw [h p hp]; decide
  simp [parameterList, hpositional, hoptional, hnamed, declarations]

/-- The group of a list stands in its brackets after the other declarations. -/
theorem parameterList_optional {positional group : List Parameter} (hne : group ≠ [])
    (hpositional : ∀ p ∈ positional, p.kind = .positional)
    (hgroup : ∀ p ∈ group, p.kind = .optionalPositional) :
    parameterList (positional ++ group)
      = join ", " (positional.map Parameter.declaration ++ ["[" ++ declarations group ++ "]"]) := by
  have hp : ((positional ++ group).filter fun p => p.kind == .positional) = positional := by
    rw [List.filter_append, List.filter_eq_self.mpr fun p hp => by simp [hpositional p hp],
      List.filter_eq_nil_iff.mpr fun p hp => by simp [hgroup p hp], List.append_nil]
  have ho : ((positional ++ group).filter fun p => p.kind == .optionalPositional) = group := by
    rw [List.filter_append, List.filter_eq_nil_iff.mpr fun p hp => by simp [hpositional p hp],
      List.filter_eq_self.mpr fun p hp => by simp [hgroup p hp], List.nil_append]
  have hn : ((positional ++ group).filter fun p => p.kind.isNamed) = [] := by
    refine List.filter_eq_nil_iff.mpr fun p hp => ?_
    rcases List.mem_append.mp hp with hp | hp
    · rw [hpositional p hp]
      decide
    · rw [hgroup p hp]
      decide
  simp [parameterList, hp, ho, hn, hne]

theorem parameterList_named {positional group : List Parameter} (hne : group ≠ [])
    (hpositional : ∀ p ∈ positional, p.kind = .positional)
    (hgroup : ∀ p ∈ group, p.kind.isNamed = true) :
    parameterList (positional ++ group)
      = join ", " (positional.map Parameter.declaration
          ++ ["\x7b" ++ declarations group ++ "\x7d"]) := by
  have hkind : ∀ p ∈ group, p.kind ≠ .positional ∧ p.kind ≠ .optionalPositional := by
    intro p hp
    have hnamed := hgroup p hp
    constructor <;>
    · intro hk
      rw [hk] at hnamed
      exact absurd hnamed (by decide)
  have hp : ((positional ++ group).filter fun p => p.kind == .positional) = positional := by
    rw [List.filter_append, List.filter_eq_self.mpr fun p hp => by simp [hpositional p hp],
      List.filter_eq_nil_iff.mpr fun p hp => by simp [(hkind p hp).1], List.append_nil]
  have ho : ((positional ++ group).filter fun p => p.kind == .optionalPositional) = [] := by
    refine List.filter_eq_nil_iff.mpr fun p hp => ?_
    rcases List.mem_append.mp hp with hp | hp
    · simp [hpositional p hp]
    · simp [(hkind p hp).2]
  have hn : ((positional ++ group).filter fun p => p.kind.isNamed) = group := by
    rw [List.filter_append, List.filter_eq_self.mpr fun p hp => hgroup p hp,
      List.filter_eq_nil_iff.mpr fun p hp => by rw [hpositional p hp]; decide, List.nil_append]
  simp [parameterList, hp, ho, hn, hne]

/-- A group in its brackets. -/
def bracketed (opening : Char) (group : List Parameter) : String :=
  String.ofList (opening :: ((declarations group).toList ++ [closerOf opening]))

theorem toList_bracketed (opening : Char) (group : List Parameter) :
    (bracketed opening group).toList
      = opening :: ((declarations group).toList ++ [closerOf opening]) :=
  String.toList_ofList

/-- **A list with a group** has the group in the brackets of its kind at its end. -/
theorem parameterList_group {positional group : List Parameter} (hne : group ≠ [])
    (h : IsParameterList positional group) :
    ∃ opening kind, (opening = '\x7b' ∨ opening = '[') ∧
      groupOf opening = (closerOf opening, kind) ∧ (∀ p ∈ group, groupKind p.kind = kind) ∧
      parameterList (positional ++ group)
        = join ", " (positional.map Parameter.declaration ++ [bracketed opening group]) := by
  rcases h.group_kind with hgroup | hgroup
  · refine ⟨'[', .optionalPositional, Or.inr rfl, by decide, fun p hp => ?_, ?_⟩
    · rw [hgroup p hp]
      rfl
    · have hbracketed : "[" ++ declarations group ++ "]" = bracketed '[' group := by
        rw [← String.toList_inj]
        simp [bracketed, String.toList_append, closerOf]
      rw [parameterList_optional hne h.positional_kind hgroup, hbracketed]
  · refine ⟨'\x7b', .named, Or.inl rfl, by decide, fun p hp => ?_, ?_⟩
    · have hnamed := hgroup p hp
      cases hk : p.kind <;> rw [hk] at hnamed <;>
        first
          | rfl
          | exact absurd hnamed (by decide)
    · have hbracketed : "\x7b" ++ declarations group ++ "\x7d" = bracketed '\x7b' group := by
        rw [← String.toList_inj]
        simp [bracketed, String.toList_append, closerOf]
      rw [parameterList_named hne h.positional_kind hgroup, hbracketed]

theorem isInline_declarations {ps : List Parameter} (h : ∀ p ∈ ps, IsParameter p) :
    IsInline (declarations ps).toList := by
  refine isInline_join fun t ht => ?_
  obtain ⟨p, hp, rfl⟩ := List.mem_map.mp ht
  exact isInline_declaration (h p hp)

/-- The list can stand between the parentheses of a declaration. -/
theorem isInline_parameterList {positional group : List Parameter}
    (h : IsParameterList positional group) :
    IsInline (parameterList (positional ++ group)).toList := by
  have hpositional : ∀ p ∈ positional, IsParameter p := fun p hp => h.each p (by simp [hp])
  have hgroup : ∀ p ∈ group, IsParameter p := fun p hp => h.each p (by simp [hp])
  by_cases hne : group = []
  · subst hne
    rw [List.append_nil, parameterList_positional h.positional_kind]
    exact isInline_declarations hpositional
  · obtain ⟨opening, kind, hopening, -, -, htext⟩ := parameterList_group hne h
    have hbracket : isOpening opening = true := by
      rcases hopening with rfl | rfl <;> decide
    rw [htext]
    refine isInline_join fun t ht => ?_
    rcases List.mem_append.mp ht with ht | ht
    · obtain ⟨p, hp, rfl⟩ := List.mem_map.mp ht
      exact isInline_declaration (hpositional p hp)
    · rw [List.mem_singleton.mp ht, toList_bracketed]
      exact (isInline_declarations hgroup).group hbracket

/-! ### Reading a list -/

theorem isEntry_of_mem_map {ps : List Parameter} (h : ∀ p ∈ ps, IsParameter p) :
    ∀ t ∈ ps.map Parameter.declaration, IsEntry ',' t.toList := by
  intro t ht
  obtain ⟨p, hp, rfl⟩ := List.mem_map.mp ht
  exact isEntry_declaration (h p hp)

/-- Declarations of one kind are read back from between their commas. -/
theorem read_declarations {ps : List Parameter} {kind : ParameterKind}
    (h : ∀ p ∈ ps, IsReadable p) (hkind : ∀ p ∈ ps, groupKind p.kind = kind) :
    ((ps.map Parameter.declaration).map fun t => trim t.toList).map (Entry.read kind)
      = ps.map Entry.accepted := by
  rw [List.map_map, List.map_map]
  refine List.map_congr_left fun p hp => ?_
  rw [Function.comp_apply, Function.comp_apply, trim_declaration (h p hp), ← hkind p hp]
  exact read_declaration (h p hp)

/-- Positional declarations do not open a group. -/
theorem isNested_positional {ps : List Parameter} (h : ∀ p ∈ ps, IsParameter p)
    (hdefault : ∀ p ∈ ps, p.default = none) :
    ∀ t ∈ ps.map Parameter.declaration,
      isNested (fun c => !(c == '\x7b' || c == '[')) t.toList = true := by
  intro t ht
  obtain ⟨p, hp, rfl⟩ := List.mem_map.mp ht
  rw [toList_declaration, hdefault p hp, List.append_nil]
  refine isNested_mono (fun c hc => ?_) (isNested_signature (h p hp).isReadable)
  have hbrace := ne_of_forall hc (d := '\x7b') (by decide)
  have hbracket := ne_of_forall hc (d := '[') (by decide)
  simp [hbrace, hbracket]

/-- **A parameter list is read back as it is written**, and nothing of it is rejected. -/
theorem entries_parameterList {positional group : List Parameter}
    (h : IsParameterList positional group) :
    entries (parameterList (positional ++ group)).toList
      = (positional ++ group).map Entry.accepted := by
  have hpositional : ∀ p ∈ positional, IsParameter p := fun p hp => h.each p (by simp [hp])
  have hgroup : ∀ p ∈ group, IsParameter p := fun p hp => h.each p (by simp [hp])
  have hkind : ∀ p ∈ positional, groupKind p.kind = .positional := fun p hp => by
    rw [h.positional_kind p hp]
    rfl
  have hcut : ∀ c, (!(c == '\x7b' || c == '[')) = true → (c == '\x7b' || c == '[') = false :=
    fun c hc => by simpa using hc
  have hnested := isNested_positional hpositional h.positional_default
  by_cases hne : group = []
  · subst hne
    rw [List.append_nil, parameterList_positional h.positional_kind]
    have hnone : cut? (fun c => c == '\x7b' || c == '[') (declarations positional).toList = none :=
      cut?_nested hcut (isNested_join (by decide) hnested)
    have hparts : ParameterText.ofList (declarations positional).toList
        = ⟨(declarations positional).toList, none⟩ := by
      rw [ParameterText.ofList, hnone]
    unfold entries
    simp only [hparts, List.append_nil]
    rw [readEntries, declarations, splitTopLevel_join (isEntry_of_mem_map hpositional),
      read_declarations (fun p hp => (hpositional p hp).isReadable) hkind]
  · obtain ⟨opening, kind, hopening, hof, hgroupKind, htext⟩ := parameterList_group hne h
    have hbracket : isOpening opening = true := by
      rcases hopening with rfl | rfl <;> decide
    have hmark : (opening == '\x7b' || opening == '[') = true := by
      rcases hopening with rfl | rfl <;> decide
    have hfirst :
        cut? (fun c => c == '\x7b' || c == '[') (parameterList (positional ++ group)).toList
        = some ⟨(positional.map Parameter.declaration).flatMap fun t => t.toList ++ ", ".toList,
            opening, (declarations group).toList ++ [closerOf opening]⟩ := by
      rw [htext, toList_join_concat, toList_bracketed]
      exact cut?_nested_mark hcut (isNested_flatMap (by decide) hnested) opening
        (isQuote_of_isOpening hbracket) hmark _
    have hclosed : enclosed? opening (closerOf opening)
        ((declarations group).toList ++ [closerOf opening])
          = some ⟨(declarations group).toList, []⟩ :=
      enclosed?_nested opening hbracket (isInline_declarations hgroup).nested []
    have hparts : ParameterText.ofList (parameterList (positional ++ group)).toList
        = ⟨(positional.map Parameter.declaration).flatMap fun t => t.toList ++ ", ".toList,
            some ((declarations group).toList, kind)⟩ := by
      rw [ParameterText.ofList, hfirst]
      simp only [hof, hclosed]
    have hentries := splitTopLevel_flatMap (isEntry_of_mem_map hpositional) []
    rw [List.append_nil] at hentries
    unfold entries
    simp only [hparts, readEntries]
    rw [hentries, declarations, splitTopLevel_join (isEntry_of_mem_map hgroup), List.map_append,
      List.map_append, read_declarations (fun p hp => (hpositional p hp).isReadable) hkind, read_declarations (fun p hp => (hgroup p hp).isReadable) hgroupKind]
    simp [splitTopLevel, pieces, piecesFrom, trim_nil]

end UseCases.Generation
