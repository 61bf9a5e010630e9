/-
Named parameters, written and read back.

The declarations of a named group stand between its braces, with commas between them.  A default
may compare or shift, and its `<` counts as a bracket that nothing closes: from there on no comma
is at depth zero, and the default takes all the parameters after it.  So the group is read back as
it was written exactly when such a sign stands in no default but the last one.
-/
import UseCases.Proofs.Dart.Comparison
import UseCases.Proofs.Generation.ParameterList

namespace UseCases.Generation

open Dart Text Declaration

/-- A named parameter of a bare type.  Its default may be any expression with its literals and
brackets closed, in which no comma stands outside them and every `<` is an operator. -/
structure IsNamed (p : Parameter) : Prop where
  kind : p.kind.isNamed = true
  name : isIdentifier p.name.toList = true
  type : isIdentifier p.type.toList = true
  head : p.type.toList ∉ modifiers
  default : ∀ value ∈ p.default, value.toList ≠ [] ∧ trim value.toList = value.toList ∧
    isBalanced (· != ',') value.toList = true

variable {p : Parameter} {ps : List Parameter}

theorem IsNamed.isReadable (h : IsNamed p) : IsReadable p where
  name := h.name
  type := by
    obtain ⟨c, cs, htext, hhead, hcs⟩ := exists_of_isName h.type
    have hname : isName isTypeChar p.type.toList = true := by
      rw [htext, isName, hhead, Bool.true_and, List.all_eq_true]
      exact fun d hd => isTypeChar_of_isIdentifierChar (hcs d hd)
    refine ⟨⟨p.type.toList, none, false, hname, rfl, rfl⟩, ?_, rfl, rfl, h.head⟩
    rw [TypeToken.text, TypeToken.argumentText, TypeToken.mark]
    exact (List.append_nil _).symm
  default value hvalue := ⟨(h.default value hvalue).1, (h.default value hvalue).2.1⟩

theorem IsNamed.groupKind (h : IsNamed p) : groupKind p.kind = .named := by
  have hkind := h.kind
  cases hk : p.kind with
  | named => rfl
  | requiredNamed => rfl
  | positional => rw [hk] at hkind; cases hkind
  | optionalPositional => rw [hk] at hkind; cases hkind

/-- A signature of a bare type has no brackets and no commas. -/
theorem IsNamed.isBalanced_signature (h : IsNamed p) :
    isBalanced (· != ',') (signature p) = true ∧ lessCount .outside (signature p) = 0 := by
  have hrequired : ("required ".toList.all fun c => isTypeChar c || c == ' ') = true := by decide
  have hchar : ∀ c ∈ signature p, isTypeChar c = true ∨ c = ' ' := by
    intro c hc
    unfold signature at hc
    rcases List.mem_append.mp hc with hc | hc
    · rcases List.mem_append.mp hc with hc | hc
      · split at hc
        · simpa using List.all_eq_true.mp hrequired c hc
        · cases hc
      · exact Or.inl (isTypeChar_of_isIdentifierChar (forall_mem_identifier h.type c hc))
    · rcases List.mem_cons.mp hc with rfl | hc
      · exact Or.inr rfl
      · exact Or.inl (isTypeChar_of_isIdentifierChar (forall_mem_identifier h.name c hc))
  refine isBalanced_flat fun c hc => ?_
  rcases hchar c hc with htype | rfl
  · exact ⟨isFlat_of_isTypeChar htype, by simpa using ne_of_forall htype (d := ',') (by decide)⟩
  · exact ⟨by decide, by decide⟩

/-- The less-than signs of a declaration are those of its default. -/
theorem IsNamed.isBalanced_declaration (h : IsNamed p) :
    isBalanced (· != ',') p.declaration.toList = true ∧
      lessCount .outside p.declaration.toList =
        (p.default.map fun value => lessCount .outside value.toList).getD 0 := by
  obtain ⟨hsignature, hnone⟩ := h.isBalanced_signature
  rw [toList_declaration]
  cases hdefault : p.default with
  | none =>
      rw [List.append_nil]
      exact ⟨hsignature, hnone⟩
  | some value =>
      obtain ⟨-, -, hvalue⟩ := h.default value hdefault
      obtain ⟨hassigned, hcount⟩ := isBalanced_append (fun _ h => h)
        (show isBalanced (· != ',') " = ".toList = true by decide) hvalue
      obtain ⟨hwhole, hsum⟩ := isBalanced_append (fun _ h => h) hsignature hassigned
      refine ⟨hwhole, hsum.trans ?_⟩
      rw [hnone, hcount]
      exact (Nat.zero_add _).trans (Nat.zero_add _)

theorem IsNamed.isTerm (h : IsNamed p) : IsTerm p.declaration.toList where
  visible := by
    rw [trim_declaration h.isReadable]
    exact declaration_ne_nil p
  balanced := h.isBalanced_declaration.1

/-- There is a less-than sign in a declaration if and only if there is one in its default. -/
theorem IsNamed.lessCount_eq_zero_iff (h : IsNamed p) :
    lessCount .outside p.declaration.toList = 0 ↔
      ∀ value ∈ p.default, ('<', true) ∉ markCode .outside value.toList := by
  rw [h.isBalanced_declaration.2]
  cases hdefault : p.default with
  | none => simp
  | some value => simp [lessCount, List.count_eq_zero]

theorem isTerm_of_mem_map (h : ∀ p ∈ ps, IsNamed p) :
    ∀ t ∈ ps.map Parameter.declaration, IsTerm t.toList := by
  intro t ht
  obtain ⟨p, hp, rfl⟩ := List.mem_map.mp ht
  exact (h p hp).isTerm

/-! ### The group -/

theorem length_accepted_le (es : List Entry) : (accepted es).length ≤ es.length :=
  List.length_filterMap_le _ es

/-- What is read of a named group: the entries between its braces. -/
theorem entries_named (h : ∀ p ∈ ps, IsNamed p) :
    entries (parameterList ps).toList
      = (splitTopLevel ',' (declarations ps).toList).map (Entry.read .named) := by
  by_cases hne : ps = []
  · subst hne
    rfl
  · have htext : (parameterList ps).toList
        = '\x7b' :: ((declarations ps).toList ++ [closerOf '\x7b']) := by
      have hlist : parameterList ([] ++ ps) = _ :=
        parameterList_named hne (by simp) fun p hp => (h p hp).kind
      rw [List.nil_append] at hlist
      rw [hlist]
      simp [join, String.toList_append, closerOf]
    have hclosed : enclosed? '\x7b' (closerOf '\x7b')
        ((declarations ps).toList ++ [closerOf '\x7b']) = some ⟨(declarations ps).toList, []⟩ :=
      enclosed?_balanced (by decide) (by decide) (isBalanced_join (isTerm_of_mem_map h)) []
    have hparts : ParameterText.ofList (parameterList ps).toList
        = ⟨[], some ((declarations ps).toList, .named)⟩ := by
      have hcut : cut? (fun c => c == '\x7b' || c == '[') (parameterList ps).toList
          = some ⟨[], '\x7b', (declarations ps).toList ++ [closerOf '\x7b']⟩ := by
        rw [htext]
        exact cutFrom?_hit (by decide) (by decide)
      have hof : groupOf '\x7b' = (closerOf '\x7b', .named) := by decide
      rw [ParameterText.ofList, hcut]
      simp only [hof, hclosed]
    unfold entries
    simp only [hparts, readEntries]
    rfl

/-- **A named group is read back as it was written if and only if no default but the last one
holds a `<` outside its literals.**  Otherwise parameters are missing from what is read. -/
theorem named_group_read_back (ps : List Parameter) (h : ∀ p ∈ ps, IsNamed p) :
    (accepted (entries (parameterList ps).toList) = ps ∧
        rejected (entries (parameterList ps).toList) = []) ↔
      ∀ p ∈ ps.dropLast, ∀ value ∈ p.default, ('<', true) ∉ markCode .outside value.toList := by
  have hterms := isTerm_of_mem_map h
  rw [entries_named h]
  constructor
  · rintro ⟨hread, -⟩ p hp
    rw [← (h p (List.dropLast_subset ps hp)).lessCount_eq_zero_iff]
    by_contra hless
    have hfewer : (splitTopLevel ',' (declarations ps).toList).length < ps.length := by
      have hmem : p.declaration ∈ (ps.map Parameter.declaration).dropLast := by
        rw [← List.map_dropLast]
        exact List.mem_map_of_mem hp
      have hlt := length_splitTopLevel_lt hterms ⟨_, hmem, Nat.pos_of_ne_zero hless⟩
      rwa [List.length_map] at hlt
    have hlength :=
      length_accepted_le ((splitTopLevel ',' (declarations ps).toList).map (Entry.read .named))
    rw [hread, List.length_map] at hlength
    omega
  · intro hnone
    have hsplit : splitTopLevel ',' (declarations ps).toList
        = (ps.map Parameter.declaration).map fun t => trim t.toList := by
      refine splitTopLevel_terms hterms fun t ht => ?_
      rw [← List.map_dropLast] at ht
      obtain ⟨p, hp, rfl⟩ := List.mem_map.mp ht
      exact (h p (List.dropLast_subset ps hp)).lessCount_eq_zero_iff.mpr (hnone p hp)
    rw [hsplit, read_declarations (fun p hp => (h p hp).isReadable) fun p hp => (h p hp).groupKind]
    constructor
    · simp [accepted, List.filterMap_map]
    · simp [rejected, List.filterMap_map]

/-- A window of a list: the last default compares, the ones before it do not. -/
def windowParameters : List Parameter :=
  [⟨"int", "start", .named, some "pair(0, '<')[1]"⟩, ⟨"User", "owner", .requiredNamed, none⟩,
    ⟨"bool", "small", .named, some "1 < 2"⟩]

theorem isNamed_window : ∀ p ∈ windowParameters, IsNamed p := by
  intro p hp
  simp only [windowParameters, List.mem_cons, List.not_mem_nil, or_false] at hp
  rcases hp with rfl | rfl | rfl
  · exact ⟨rfl, by decide, by decide, by decide, by rintro value ⟨rfl⟩; decide⟩
  · exact ⟨rfl, by decide, by decide, by decide, by rintro value ⟨⟩⟩
  · exact ⟨rfl, by decide, by decide, by decide, by rintro value ⟨rfl⟩; decide⟩

theorem window_read_back :
    (∀ p ∈ windowParameters, IsNamed p) ∧
      accepted (entries (parameterList windowParameters).toList) = windowParameters ∧
      rejected (entries (parameterList windowParameters).toList) = [] := by
  refine ⟨isNamed_window, (named_group_read_back windowParameters isNamed_window).mpr ?_⟩
  decide

/-- A comparison takes the parameter after it into its default, and nothing is rejected. -/
theorem comparison_takes_parameters :
    (∀ p ∈ [⟨"bool", "small", .named, some "1 < 2"⟩, ⟨"int", "size", .named, some "3"⟩], IsNamed p) ∧
      accepted (entries (parameterList
        [⟨"bool", "small", .named, some "1 < 2"⟩, ⟨"int", "size", .named, some "3"⟩]).toList) =
          [⟨"bool", "small", .named, some "1 < 2, int size = 3"⟩] ∧
      rejected (entries (parameterList
        [⟨"bool", "small", .named, some "1 < 2"⟩, ⟨"int", "size", .named, some "3"⟩]).toList) =
          [] := by
  refine ⟨fun p hp => ?_, by decide, by decide⟩
  simp only [List.mem_cons, List.not_mem_nil, or_false] at hp
  rcases hp with rfl | rfl
  · exact ⟨rfl, by decide, by decide, by decide, by rintro value ⟨rfl⟩; decide⟩
  · exact ⟨rfl, by decide, by decide, by decide, by rintro value ⟨rfl⟩; decide⟩

end UseCases.Generation
