/-
The names in a holder.

The parameters are written three times in the file of a holder: as fields, in the constructor and
in the list of properties.  Each list is read back from the text, by a reader that knows nothing of
the others, and all three turn out to be the names of the parameters in their order.
-/
import Mathlib.Data.List.Basic
import UseCases.Proofs.Generation.Holder
import UseCases.Proofs.Generation.Naming
import UseCases.Proofs.Generation.ParameterList

namespace UseCases.Generation

open Dart Text Declaration

/-! ### Readers -/

/-- The lines of a file, trimmed. -/
def trimmedLines (text : String) : List (List Char) :=
  (lines text.toList).map trim

/-- The name that a line `final <type> <name>;` declares: its last word. -/
def fieldName? (line : List Char) : Option (List Char) :=
  if startsWith "final ".toList line && endsWith [';'] line then
    some (line.reverse.tail.takeWhile (· != ' ')).reverse
  else none

/-- The names of the final fields of a file. -/
def fieldNames (text : String) : List (List Char) :=
  (trimmedLines text).filterMap fieldName?

/-- The name that an entry of a constructor's parameters sets. -/
def initializedName? (entry : List Char) : Option (List Char) :=
  let setter := (after? "required ".toList entry).getD entry
  ((after? "this.".toList setter).bind readIdentifier?).map Lexeme.token

/-- What the entries in the braces of the first `const` constructor set. -/
def constructorNames? (text : String) : Option (List (Option (List Char))) :=
  ((trimmedLines text).findSome? (after? "const ".toList)).map fun line =>
    match (afterFirst? "(\x7b".toList line).bind (enclosed? '\x7b' '\x7d') with
    | some group => (splitTopLevel ',' group.inside).map initializedName?
    | none => []

/-- The entries of the list that `props` returns. -/
def propsNames? (text : String) : Option (List (List Char)) :=
  ((trimmedLines text).findSome? (after? "List<Object?> get props => [".toList)).bind fun line =>
    (enclosed? '[' ']' line).map fun list => splitTopLevel ',' list.inside

/-! ### Parameters of a holder -/

/-- A parameter that a holder can hold. -/
structure IsHeld (p : Parameter) : Prop where
  name : isIdentifier p.name.toList = true
  type_oneLine : '\n' ∉ p.type.toList
  default_oneLine : ∀ value ∈ p.default, '\n' ∉ value.toList
  default_nested : ∀ value ∈ p.default, isNested (· != ',') value.toList = true

/-- A parameter of the constructor: `this.` and the name, perhaps after `required`, and perhaps
before the default. -/
theorem toList_holderParameter (p : Parameter) :
    ∃ lead tail, (holderParameter p).toList = lead ++ p.name.toList ++ tail ∧
      (lead = "this.".toList ∨ lead = "required this.".toList) ∧
      (tail = [] ∨ ∃ value, p.default = some value ∧ tail = " = ".toList ++ value.toList) := by
  unfold holderParameter
  cases hdefault : p.default with
  | none =>
      simp only
      split
      · exact ⟨_, [], by rw [List.append_nil, String.toList_append], Or.inl rfl, Or.inl rfl⟩
      · exact ⟨_, [], by rw [List.append_nil, String.toList_append], Or.inr rfl, Or.inl rfl⟩
  | some value =>
      simp only
      split
      · refine ⟨_, _, ?_, Or.inl rfl, Or.inr ⟨value, rfl, rfl⟩⟩
        simp only [String.toList_append, List.append_assoc]
      · exact ⟨_, [], by rw [List.append_nil, String.toList_append], Or.inr rfl, Or.inl rfl⟩

theorem isNested_identifier {bare : Char → Bool} {name : List Char}
    (h : isIdentifier name = true) (hbare : ∀ c, isIdentifierChar c = true → bare c = true) :
    isNested bare name = true :=
  isNested_flat fun c hc =>
    have hchar := forall_mem_identifier h c hc
    ⟨isFlat_of_isTypeChar (isTypeChar_of_isIdentifierChar hchar), hbare c hchar⟩

theorem trim_identifier {name : List Char} (h : isIdentifier name = true) : trim name = name :=
  trim_eq_self
    (fun c hc => isBlank_of_isIdentifierChar (forall_mem_identifier h c (List.mem_of_head? hc)))
    (fun c hc => isBlank_of_isIdentifierChar (forall_mem_identifier h c (List.mem_of_getLast? hc)))

/-- Up to its default an entry is trimmed. -/
theorem trim_holderParameter {p : Parameter} (h : IsHeld p) :
    ∃ lead rest, trim (holderParameter p).toList = lead ++ p.name.toList ++ rest ∧
      (lead = "this.".toList ∨ lead = "required this.".toList) ∧
      ∀ c, rest.head? = some c → isIdentifierChar c = false := by
  obtain ⟨lead, tail, htext, hlead, htail⟩ := toList_holderParameter p
  obtain ⟨c, cs, hname, hhead, -⟩ := exists_of_isName h.name
  have hfirst : ∀ d, (lead ++ p.name.toList).head? = some d → isBlank d = false := by
    intro d hd
    rcases hlead with rfl | rfl <;>
    · cases hd
      decide
  have hlast : ∀ d, (lead ++ p.name.toList).getLast? = some d → isBlank d = false := by
    intro d hd
    rw [List.getLast?_append_of_ne_nil _ (by simp [hname])] at hd
    exact isBlank_of_isIdentifierChar
      (forall_mem_identifier h.name d (List.mem_of_getLast? hd))
  have hne : lead ++ p.name.toList ≠ [] := by simp [hname]
  obtain ⟨rest, hrest, htrim⟩ := trim_append_prefix hne hfirst hlast tail
  refine ⟨lead, rest, by rw [htext, htrim], hlead, fun d hd => ?_⟩
  rcases htail with rfl | ⟨value, -, rfl⟩
  · rw [List.prefix_nil.mp hrest] at hd
    cases hd
  · cases rest with
    | nil => cases hd
    | cons e es =>
        obtain ⟨more, hmore⟩ := hrest
        have hspace : e = ' ' := (List.cons.inj hmore).1
        cases hd
        rw [hspace]
        decide

theorem isEntry_holderParameter {p : Parameter} (h : IsHeld p) :
    IsEntry ',' (holderParameter p).toList where
  visible := by
    obtain ⟨lead, rest, htrim, hlead, -⟩ := trim_holderParameter h
    rw [htrim]
    rcases hlead with rfl | rfl <;> simp
  nested := by
    obtain ⟨lead, tail, htext, hlead, htail⟩ := toList_holderParameter p
    have hname : isNested (fun c => c != ',') p.name.toList = true :=
      isNested_identifier h.name fun c hc => by simpa using ne_of_forall hc (d := ',') (by decide)
    have hfront : isNested (fun c => c != ',') lead = true := by
      rcases hlead with rfl | rfl <;> decide
    rw [htext]
    refine isNested_append (isNested_append hfront hname) ?_
    rcases htail with rfl | ⟨value, hvalue, rfl⟩
    · rfl
    · exact isNested_append (by decide) (h.default_nested value hvalue)

/-- **An entry of the constructor sets the field of its parameter.** -/
theorem initializedName?_holderParameter {p : Parameter} (h : IsHeld p) :
    initializedName? (trim (holderParameter p).toList) = some p.name.toList := by
  obtain ⟨lead, rest, htrim, hlead, hrest⟩ := trim_holderParameter h
  have hread : readIdentifier? (p.name.toList ++ rest) = some ⟨p.name.toList, rest⟩ :=
    readIdentifier?_append h.name hrest
  have hthis : after? "this.".toList ("this.".toList ++ (p.name.toList ++ rest))
      = some (p.name.toList ++ rest) := after?_append _ _
  have hsetter : (after? "required ".toList (lead ++ p.name.toList ++ rest)).getD
      (lead ++ p.name.toList ++ rest) = "this.".toList ++ (p.name.toList ++ rest) := by
    rcases hlead with rfl | rfl
    · simp [after?]
    · have hrequired : "required this.".toList ++ p.name.toList ++ rest
          = "required ".toList ++ ("this.".toList ++ (p.name.toList ++ rest)) := by simp
      rw [hrequired, after?_append, Option.getD_some]
  unfold initializedName?
  simp only [htrim, hsetter, hthis, Option.bind_some, hread, Option.map_some]

/-! ### The lines of a holder -/

theorem trim_indented (row : String) : trim ("  " ++ row).toList = trim row.toList := by
  have htext : ("  " ++ row).toList = ' ' :: ' ' :: row.toList := by
    rw [String.toList_append]
    rfl
  rw [htext, trim_cons_blank (by decide), trim_cons_blank (by decide)]

/-- The constructor's parameters in their braces, if there are any. -/
def setterGroup (parameters : List Parameter) : String :=
  if parameters.isEmpty then "" else "\x7b" ++ join ", " (parameters.map holderParameter) ++ "\x7d"

theorem constructor_declaration (base : String) (parameters : List Parameter) :
    Constructor.declaration ⟨paramsType base, true, [], parameters.map holderParameter⟩
      = "const " ++ paramsType base ++ "(" ++ setterGroup parameters ++ ");" := by
  cases parameters <;> rfl

/-- The trimmed lines of the class of a holder. -/
def holderLines (base : String) (parameters : List Parameter) : List (List Char) :=
  (holderHeader base).toList ::
    ((parameters.map fun p => (Field.declaration ⟨p.type, p.name⟩).toList)
      ++ (if parameters.isEmpty then [] else [[]])
      ++ [("const " ++ paramsType base ++ "(" ++ setterGroup parameters ++ ");").toList, [],
        "@override".toList,
        ("List<Object?> get props => " ++ ("[" ++ join ", " (parameters.map Parameter.name) ++ "]")
          ++ ";").toList,
        ['\x7d'], []])

theorem trim_directive (i : Import) : trim i.directive.toList = i.directive.toList :=
  trim_eq_self_of_ends (c := 'i') (d := ';') (by simp [Import.directive])
    (by simp [Import.directive, List.getLast?_cons]) (by decide) (by decide)

theorem trim_holderHeader (base : String) :
    trim (holderHeader base).toList = (holderHeader base).toList :=
  trim_eq_self_of_ends (c := 'c') (d := '\x7b') (by simp [holderHeader])
    (by simp [holderHeader, List.getLast?_cons]) (by decide) (by decide)

theorem trim_fieldRow (p : Parameter) :
    trim (fieldRow p).toList = (Field.declaration ⟨p.type, p.name⟩).toList := by
  rw [fieldRow, trim_indented]
  exact trim_eq_self_of_ends (c := 'f') (d := ';') (by simp [Field.declaration])
    (by simp [Field.declaration, List.getLast?_cons]) (by decide) (by decide)

theorem trim_constructorRow (base : String) (parameters : List Parameter) :
    trim (constructorRow base parameters).toList
      = ("const " ++ paramsType base ++ "(" ++ setterGroup parameters ++ ");").toList := by
  rw [constructorRow, trim_indented, constructor_declaration]
  exact trim_eq_self_of_ends (c := 'c') (d := ';') (by simp)
    (by simp [List.getLast?_cons]) (by decide) (by decide)

theorem trim_propsRow (parameters : List Parameter) :
    trim (propsRow parameters).toList
      = ("List<Object?> get props => " ++ ("[" ++ join ", " (parameters.map Parameter.name) ++ "]")
          ++ ";").toList := by
  rw [propsRow, trim_indented]
  exact trim_eq_self_of_ends (c := 'L') (d := ';') (by simp)
    (by simp [List.getLast?_cons]) (by decide) (by decide)

/-- The trimmed lines of a holder, if no row has a newline in it. -/
theorem trimmedLines_holder {base : String} {parameters : List Parameter}
    {context : ImportContext}
    (h : ∀ row ∈ holderFile base parameters context, '\n' ∉ row.toList) :
    trimmedLines (paramsUnit base parameters context).content
      = (holderImports parameters context).map (fun i => i.directive.toList)
        ++ [] :: holderLines base parameters := by
  have hfields : (parameters.map fieldRow).map (fun row => trim row.toList)
      = parameters.map fun p => (Field.declaration ⟨p.type, p.name⟩).toList := by
    rw [List.map_map]
    refine List.map_congr_left fun p _ => ?_
    rw [Function.comp_apply, trim_fieldRow]
  have himports : ((holderImports parameters context).map Import.directive).map
      (fun row => trim row.toList) = (holderImports parameters context).map fun i =>
        i.directive.toList := by
    rw [List.map_map]
    refine List.map_congr_left fun i _ => ?_
    rw [Function.comp_apply, trim_directive]
  have hgap : (if parameters.isEmpty then [] else [""]).map (fun row => trim row.toList)
      = if parameters.isEmpty then [] else [[]] := by
    split <;> rfl
  have hrows : (holderRows base parameters).map (fun row => trim row.toList) ++ [[]]
      = (holderLines base parameters).tail := by
    unfold holderRows holderLines
    rw [List.map_append, List.map_append, hfields, hgap]
    simp only [List.map_cons, List.map_nil, trim_constructorRow, trim_propsRow, List.tail_cons,
      List.append_assoc, List.cons_append, List.nil_append]
    rfl
  rw [trimmedLines, holder_rows, lines_rowsText h, List.map_append, List.map_map, holderFile]
  show List.map (fun row : String => trim row.toList) _ ++ [[]] = _
  rw [List.map_append, himports, List.map_cons, List.map_cons, trim_holderHeader, List.append_assoc]
  simp only [List.cons_append, hrows]
  rfl

/-! ### The three lists of the holder -/

theorem fieldName?_of_head {line : List Char} (h : line.head? ≠ some 'f') :
    fieldName? line = none := by
  cases line with
  | nil => rfl
  | cons c cs =>
      have hc : c ≠ 'f' := fun hc => h (by rw [hc]; rfl)
      simp [fieldName?, startsWith, Ne.symm hc]

theorem fieldName?_field {p : Parameter} (h : isIdentifier p.name.toList = true) :
    fieldName? (Field.declaration ⟨p.type, p.name⟩).toList = some p.name.toList := by
  have htext : (Field.declaration ⟨p.type, p.name⟩).toList
      = "final ".toList ++ (p.type.toList ++ ' ' :: (p.name.toList ++ [';'])) := by
    simp [Field.declaration]
  have hends : endsWith [';']
      ("final ".toList ++ (p.type.toList ++ ' ' :: (p.name.toList ++ [';']))) = true := by
    rw [endsWith, List.isSuffixOf_iff_suffix]
    exact ⟨"final ".toList ++ (p.type.toList ++ ' ' :: p.name.toList), by simp⟩
  have hlast : ("final ".toList ++ (p.type.toList ++ ' ' :: (p.name.toList ++ [';']))).reverse.tail
      = p.name.toList.reverse ++ ' ' :: ("final ".toList ++ p.type.toList).reverse := by
    simp
  have hname : ∀ c ∈ p.name.toList.reverse, (c != ' ') = true := by
    intro c hc
    have hchar := forall_mem_identifier h c (List.mem_reverse.mp hc)
    simpa using ne_of_forall hchar (d := ' ') (by decide)
  unfold fieldName?
  rw [htext, startsWith_append, hends, hlast, takeWhile_append_stop hname (by rintro c ⟨rfl⟩; rfl)]
  simp

/-- **The fields of a holder are the parameters.** -/
theorem fieldNames_holder {base : String} {parameters : List Parameter} {context : ImportContext}
    (hheld : ∀ p ∈ parameters, IsHeld p)
    (h : ∀ row ∈ holderFile base parameters context, '\n' ∉ row.toList) :
    fieldNames (paramsUnit base parameters context).content
      = parameters.map fun p => p.name.toList := by
  have himports : ((holderImports parameters context).map fun i => i.directive.toList).filterMap
      fieldName? = [] := by
    rw [List.filterMap_eq_nil_iff]
    intro line hline
    obtain ⟨i, -, rfl⟩ := List.mem_map.mp hline
    exact fieldName?_of_head (by simp [Import.directive])
  have hfields : (parameters.map fun p => (Field.declaration ⟨p.type, p.name⟩).toList).filterMap
      fieldName? = parameters.map fun p => p.name.toList := by
    rw [List.filterMap_map, ← List.filterMap_eq_map]
    refine List.filterMap_congr fun p hp => ?_
    rw [Function.comp_apply, fieldName?_field (hheld p hp).name]
    rfl
  have hgap :
      (if parameters.isEmpty then [] else [([] : List Char)]).filterMap fieldName? = [] := by
    split <;> rfl
  have hheader : fieldName? (holderHeader base).toList = none :=
    fieldName?_of_head (by simp [holderHeader])
  have hconstructor : fieldName? ("const " ++ paramsType base ++ "(" ++ setterGroup parameters
      ++ ");").toList = none := fieldName?_of_head (by simp)
  have hprops : fieldName? ("List<Object?> get props => "
      ++ ("[" ++ join ", " (parameters.map Parameter.name) ++ "]") ++ ";").toList = none :=
    fieldName?_of_head (by simp)
  have hnil : fieldName? [] = none := rfl
  have hoverride : fieldName? "@override".toList = none := by decide
  have hbrace : fieldName? ['\x7d'] = none := by decide
  rw [fieldNames, trimmedLines_holder h, List.filterMap_append, himports, List.nil_append,
    holderLines]
  simp only [List.filterMap_cons, List.filterMap_append, List.filterMap_nil, hheader, hfields,
    hgap, hconstructor, hprops, hnil, hoverride, hbrace, List.append_nil]

/-- The line that a pattern starts is found after lines that start with other characters. -/
theorem findSome?_holder {base : String} {parameters : List Parameter} {context : ImportContext}
    (h : ∀ row ∈ holderFile base parameters context, '\n' ∉ row.toList) {pattern : List Char}
    (hdirective : ∀ i : Import, after? pattern i.directive.toList = none)
    (hnil : after? pattern [] = none) (hheader : after? pattern (holderHeader base).toList = none)
    (hfield : ∀ p : Parameter, after? pattern (Field.declaration ⟨p.type, p.name⟩).toList = none) :
    (trimmedLines (paramsUnit base parameters context).content).findSome? (after? pattern)
      = [("const " ++ paramsType base ++ "(" ++ setterGroup parameters ++ ");").toList, [],
          "@override".toList,
          ("List<Object?> get props => " ++ ("[" ++ join ", " (parameters.map Parameter.name)
            ++ "]") ++ ";").toList,
          ['\x7d'], []].findSome? (after? pattern) := by
  have himports : ((holderImports parameters context).map fun i => i.directive.toList).findSome?
      (after? pattern) = none := by
    rw [List.findSome?_eq_none_iff]
    intro line hline
    obtain ⟨i, -, rfl⟩ := List.mem_map.mp hline
    exact hdirective i
  have hfields : (parameters.map fun p => (Field.declaration ⟨p.type, p.name⟩).toList).findSome?
      (after? pattern) = none := by
    rw [List.findSome?_eq_none_iff]
    intro line hline
    obtain ⟨p, -, rfl⟩ := List.mem_map.mp hline
    exact hfield p
  have hgap : (if parameters.isEmpty then [] else [([] : List Char)]).findSome? (after? pattern)
      = none := by
    split
    · rfl
    · simp [hnil]
  rw [trimmedLines_holder h, List.findSome?_append, himports, Option.none_or,
    List.findSome?_cons_of_isNone (by simp [hnil]), holderLines,
    List.findSome?_cons_of_isNone (by simp [hheader]), List.findSome?_append,
    List.findSome?_append, hfields, hgap, Option.none_or, Option.none_or]

/-- **The constructor of a holder sets the fields of the parameters.** -/
theorem constructorNames?_holder {base : String} {parameters : List Parameter}
    {context : ImportContext} (hbase : isIdentifier base.toList = true)
    (hheld : ∀ p ∈ parameters, IsHeld p)
    (h : ∀ row ∈ holderFile base parameters context, '\n' ∉ row.toList) :
    constructorNames? (paramsUnit base parameters context).content
      = some (parameters.map fun p => some p.name.toList) := by
  have hconst : "const ".toList.head? = some 'c' := by decide
  have hheader : after? "const ".toList (holderHeader base).toList = none := by
    simp [holderHeader, after?]
  have hline : after? "const ".toList
      ("const " ++ paramsType base ++ "(" ++ setterGroup parameters ++ ");").toList
        = some ((paramsType base).toList ++ ("(" ++ setterGroup parameters ++ ");").toList) := by
    have hafter := after?_append "const ".toList
      ((paramsType base).toList ++ ("(" ++ setterGroup parameters ++ ");").toList)
    simpa using hafter
  have hfound : (trimmedLines (paramsUnit base parameters context).content).findSome?
      (after? "const ".toList)
        = some ((paramsType base).toList ++ ("(" ++ setterGroup parameters ++ ");").toList) := by
    rw [findSome?_holder h (fun i => after?_of_head hconst (by simp [Import.directive]))
      (after?_of_head hconst (by simp)) hheader
      (fun p => after?_of_head hconst (by simp [Field.declaration])), List.findSome?_cons, hline]
  have hclass : '(' ∉ (paramsType base).toList :=
    not_mem_identifier (isIdentifier_paramsType hbase) (by decide)
  unfold constructorNames?
  rw [hfound, Option.map_some]
  refine congrArg some ?_
  have hgroup := afterFirst?_append ['\x7b'] hclass
    ("(" ++ setterGroup parameters ++ ");").toList
  by_cases hnone : parameters = []
  · subst hnone
    have hclosed : afterFirst? "(\x7b".toList ("(" ++ setterGroup [] ++ ");").toList = none := by
      decide
    rw [show "(\x7b".toList = ['(', '\x7b'] by decide] at hclosed ⊢
    simp only [hgroup, hclosed, Option.bind_none, List.map_nil]
  · have htext : ("(" ++ setterGroup parameters ++ ");").toList
        = '(' :: ['\x7b'] ++ ((join ", " (parameters.map holderParameter)).toList
          ++ '\x7d' :: ");".toList) := by
      simp [setterGroup, hnone]
    have hentries : ∀ t ∈ parameters.map holderParameter, IsEntry ',' t.toList := by
      intro t ht
      obtain ⟨p, hp, rfl⟩ := List.mem_map.mp ht
      exact isEntry_holderParameter (hheld p hp)
    have hinside : isNested (fun _ => true) (join ", " (parameters.map holderParameter)).toList
        = true :=
      isNested_join (by decide) fun t ht => isNested_mono (fun _ _ => rfl) (hentries t ht).nested
    have henclosed := enclosed?_nested '\x7b' (by decide) hinside ");".toList
    rw [htext, afterFirst?_start] at hgroup
    rw [show "(\x7b".toList = ['(', '\x7b'] by decide, htext, hgroup, Option.bind_some,
      show '\x7d' = closerOf '\x7b' by decide, henclosed]
    simp only
    rw [splitTopLevel_join hentries, List.map_map, List.map_map]
    refine List.map_congr_left fun p hp => ?_
    rw [Function.comp_apply, Function.comp_apply, initializedName?_holderParameter (hheld p hp)]

theorem isEntry_name {name : List Char} (h : isIdentifier name = true) : IsEntry ',' name where
  visible := by
    obtain ⟨c, cs, rfl, hhead, -⟩ := exists_of_isName h
    rw [trim_identifier h]
    simp
  nested := isNested_identifier h fun c hc => by simpa using ne_of_forall hc (d := ',') (by decide)

/-- **The properties of a holder are the parameters.** -/
theorem propsNames?_holder {base : String} {parameters : List Parameter}
    {context : ImportContext} (hheld : ∀ p ∈ parameters, IsHeld p)
    (h : ∀ row ∈ holderFile base parameters context, '\n' ∉ row.toList) :
    propsNames? (paramsUnit base parameters context).content
      = some (parameters.map fun p => p.name.toList) := by
  have hlist : "List<Object?> get props => [".toList.head? = some 'L' := by decide
  have hline : after? "List<Object?> get props => [".toList
      ("List<Object?> get props => " ++ ("[" ++ join ", " (parameters.map Parameter.name) ++ "]")
        ++ ";").toList
        = some ((join ", " (parameters.map Parameter.name)).toList ++ ']' :: ";".toList) := by
    have hafter := after?_append "List<Object?> get props => [".toList
      ((join ", " (parameters.map Parameter.name)).toList ++ ']' :: ";".toList)
    simpa using hafter
  have hfound : (trimmedLines (paramsUnit base parameters context).content).findSome?
      (after? "List<Object?> get props => [".toList)
        = some ((join ", " (parameters.map Parameter.name)).toList ++ ']' :: ";".toList) := by
    rw [findSome?_holder h (fun i => after?_of_head hlist (by simp [Import.directive]))
      (after?_of_head hlist (by simp)) (after?_of_head hlist (by simp [holderHeader]))
      (fun p => after?_of_head hlist (by simp [Field.declaration])),
      List.findSome?_cons_of_isNone (by rw [after?_of_head hlist (by simp)]; rfl),
      List.findSome?_cons_of_isNone (by rw [after?_of_head hlist (by simp)]; rfl),
      List.findSome?_cons_of_isNone (by rw [after?_of_head hlist (by simp)]; rfl),
      List.findSome?_cons, hline]
  have hentries : ∀ t ∈ parameters.map Parameter.name, IsEntry ',' t.toList := by
    intro t ht
    obtain ⟨p, hp, rfl⟩ := List.mem_map.mp ht
    exact isEntry_name (hheld p hp).name
  have hinside :
      isNested (fun _ => true) (join ", " (parameters.map Parameter.name)).toList = true :=
    isNested_join (by decide) fun t ht => isNested_mono (fun _ _ => rfl) (hentries t ht).nested
  have henclosed := enclosed?_nested '[' (by decide) hinside ";".toList
  unfold propsNames?
  rw [hfound, Option.bind_some, show ']' = closerOf '[' by decide, henclosed, Option.map_some]
  simp only
  rw [splitTopLevel_join hentries, List.map_map]
  refine congrArg some ?_
  refine List.map_congr_left fun p hp => ?_
  rw [Function.comp_apply, trim_identifier (hheld p hp).name]

end UseCases.Generation
