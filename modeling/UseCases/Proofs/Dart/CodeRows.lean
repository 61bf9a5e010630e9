/-
The rows of code.

A blank row is put between parts only: between groups of members, between declarations, and between
the imports and the declarations.  The other rows of a library are its import directives and the
rows of its classes, in their order, and none of them is blank: a member has its indentation in
front of it, whatever its text is, and a header and a directive begin with a keyword.  Texts without
newlines make rows without newlines.
-/
import UseCases.Proofs.Dart.Layout

namespace UseCases.Dart

open Text

/-! ### Parts with blank rows between them -/

/-- Parts one after the other, with a blank row between two of them. -/
def spread : List (List String) → List String
  | [] => []
  | [part] => part
  | part :: next :: rest => part ++ "" :: spread (next :: rest)

theorem rowsOf_separated (indent : Indent) (level : Nat) (groups : List (List Fragment)) :
    rowsOf indent level (separated groups) = spread (groups.map (rowsOf indent level)) := by
  induction groups with
  | nil => rfl
  | cons group rest ih =>
      cases rest with
      | nil => rfl
      | cons next others =>
          rw [separated, rowsOf_append, rowsOf, ih, Fragment.rows]
          rfl

/-- Without blank rows the parts follow one another. -/
theorem filter_spread (parts : List (List String)) :
    (spread parts).filter (· ≠ "") = parts.flatMap (List.filter (· ≠ "")) := by
  induction parts with
  | nil => rfl
  | cons part rest ih =>
      cases rest with
      | nil => simp [spread]
      | cons next others =>
          rw [spread, List.filter_append, List.filter_cons_of_neg (by simp), ih]
          rfl

theorem spread_ne_nil {part : List String} (h : part ≠ []) (rest : List (List String)) :
    spread (part :: rest) ≠ [] := by
  cases rest with
  | nil => exact h
  | cons next others => exact List.append_ne_nil_of_left_ne_nil h _

/-! ### The rows of a class -/

namespace Callable

/-- The rows of a member, at the outermost level. -/
def codeRows (unit : String) (f : Callable) : List String :=
  (if f.isOverride then ["@override"] else []) ++ match f.body with
    | .arrow expression => [f.signature ++ " => " ++ expression ++ ";"]
    | .lines body => (f.signature ++ " \x7b") :: (body.map (unit ++ ·) ++ ["\x7d"])

end Callable

namespace ClassDefinition

/-- The rows of the groups of members, at the outermost level. -/
def memberRows (unit : String) (c : ClassDefinition) : List (List String) :=
  (if c.fields.isEmpty then [] else [c.fields.map Field.declaration])
    ++ c.constructor?.toList.map (fun k => [k.declaration])
    ++ c.methods.map (Callable.codeRows unit)

/-- The rows of a class that are not blank: its header, its fields, its constructor, its methods
and its closing brace. -/
def codeRows (unit : String) (c : ClassDefinition) : List String :=
  c.header :: ((c.fields.map Field.declaration ++ c.constructor?.toList.map Constructor.declaration
    ++ c.methods.flatMap (Callable.codeRows unit)).map (unit ++ ·) ++ ["\x7d"])

end ClassDefinition

theorem indentation_one (indent : Indent) : Page.indentation indent 1 = indent.unit := by
  simp [Page.indentation]

theorem rowsOf_callable (indent : Indent) (f : Callable) :
    rowsOf indent 1 f.fragments = (f.codeRows indent.unit).map (indent.unit ++ ·) := by
  have hannotation : rowsOf indent 1 (if f.isOverride then [.line "@override"] else [])
      = (if f.isOverride then ["@override"] else []).map (indent.unit ++ ·) := by
    split <;> simp [rowsOf, Fragment.rows, indentation_one]
  rw [Callable.fragments, rowsOf_append, hannotation, Callable.codeRows, List.map_append]
  cases f.body with
  | arrow expression => simp [rowsOf, Fragment.rows, indentation_one]
  | lines body =>
      simp [rowsOf, Fragment.rows, Fragment.braced, rowsOf_lines, Page.indentation,
        String.append_assoc]

theorem rowsOf_groups (indent : Indent) (c : ClassDefinition) :
    c.groups.map (rowsOf indent 1)
      = (c.memberRows indent.unit).map (List.map (indent.unit ++ ·)) := by
  have hfields : rowsOf indent 1 (c.fields.flatMap Field.fragments)
      = (c.fields.map Field.declaration).map (indent.unit ++ ·) := by
    rw [← indentation_one, ← rowsOf_lines]
    exact congrArg _ (flatMap_line Field.declaration c.fields)
  have hgroup : (if c.fields.isEmpty then [] else [c.fields.flatMap Field.fragments]).map
      (rowsOf indent 1) = (if c.fields.isEmpty then [] else [c.fields.map Field.declaration]).map
        (List.map (indent.unit ++ ·)) := by
    split
    · rfl
    · exact congrArg (fun group => [group]) hfields
  have hconstructor : (c.constructor?.toList.map Constructor.fragments).map (rowsOf indent 1)
      = (c.constructor?.toList.map fun k => [k.declaration]).map
          (List.map (indent.unit ++ ·)) := by
    rw [List.map_map, List.map_map]
    refine List.map_congr_left fun k _ => ?_
    simp [Constructor.fragments, rowsOf, Fragment.rows, indentation_one]
  have hmethods : (c.methods.map Callable.fragments).map (rowsOf indent 1)
      = (c.methods.map (Callable.codeRows indent.unit)).map (List.map (indent.unit ++ ·)) := by
    rw [List.map_map, List.map_map]
    exact List.map_congr_left fun f _ => rowsOf_callable indent f
  rw [ClassDefinition.groups, ClassDefinition.memberRows, List.map_append, List.map_append,
    hgroup, hconstructor, hmethods, List.map_append, List.map_append]

theorem flatten_memberRows (unit : String) (c : ClassDefinition) :
    (c.memberRows unit).flatten = c.fields.map Field.declaration
      ++ c.constructor?.toList.map Constructor.declaration
      ++ c.methods.flatMap (Callable.codeRows unit) := by
  have hfields : (if c.fields.isEmpty then [] else [c.fields.map Field.declaration]).flatten
      = c.fields.map Field.declaration := by
    split
    · rename_i hempty
      rw [List.isEmpty_iff.mp hempty]
      rfl
    · simp
  have hconstructor : (c.constructor?.toList.map fun k => [k.declaration]).flatten
      = c.constructor?.toList.map Constructor.declaration := by
    cases c.constructor? <;> rfl
  rw [ClassDefinition.memberRows, List.flatten_append, List.flatten_append, hfields, hconstructor,
    ← List.flatMap_def]

theorem rowsOf_classDefinition (indent : Indent) (c : ClassDefinition) :
    rowsOf indent 0 c.fragments = c.header ::
      (spread ((c.memberRows indent.unit).map (List.map (indent.unit ++ ·))) ++ ["\x7d"]) := by
  rw [rowsOf_class, rowsOf_separated, rowsOf_groups]

theorem memberRows_ne_nil {unit : String} {c : ClassDefinition} {group : List String}
    (h : group ∈ c.memberRows unit) : group ≠ [] := by
  rw [ClassDefinition.memberRows, List.mem_append, List.mem_append] at h
  rcases h with (hfields | hconstructor) | hmethods
  · split at hfields
    · cases hfields
    · rename_i hne
      rw [List.mem_singleton.mp hfields]
      exact fun hnil => hne (List.isEmpty_iff.mpr (List.map_eq_nil_iff.mp hnil))
  · obtain ⟨k, -, rfl⟩ := List.mem_map.mp hconstructor
    exact List.cons_ne_nil _ _
  · obtain ⟨f, -, rfl⟩ := List.mem_map.mp hmethods
    refine List.append_ne_nil_of_right_ne_nil _ ?_
    cases f.body <;> exact List.cons_ne_nil _ _

/-! ### First characters -/

theorem head_header (c : ClassDefinition) : c.header.toList.head? = some 'c' := by
  unfold ClassDefinition.header
  split <;> simp [String.toList_append]

theorem header_ne_empty (c : ClassDefinition) : c.header ≠ "" :=
  fun hempty => absurd (hempty ▸ head_header c) (by decide)

theorem head_directive (i : Import) : i.directive.toList.head? = some 'i' := by
  simp [Import.directive, String.toList_append]

theorem directive_ne_empty (i : Import) : i.directive ≠ "" :=
  fun hempty => absurd (hempty ▸ head_directive i) (by decide)

theorem exists_head_unit (indent : Indent) :
    ∃ c, indent.unit.toList.head? = some c ∧ isBlank c = true := by
  unfold Indent.unit
  split <;> exact ⟨_, rfl, by decide⟩

theorem unit_append_ne_empty (indent : Indent) (row : String) : indent.unit ++ row ≠ "" := by
  obtain ⟨c, hc, -⟩ := exists_head_unit indent
  intro hempty
  have hunit : indent.unit.toList = [] :=
    (List.append_eq_nil_iff.mp ((String.toList_append).symm.trans (congrArg _ hempty))).1
  rw [hunit] at hc
  cases hc

/-- Without its blank rows a class has the rows of its members between its braces. -/
theorem filter_class (indent : Indent) (c : ClassDefinition) :
    (rowsOf indent 0 c.fragments).filter (· ≠ "") = c.codeRows indent.unit := by
  have hmembers : ∀ group : List String,
      (group.map (indent.unit ++ ·)).filter (· ≠ "") = group.map (indent.unit ++ ·) := by
    intro group
    rw [List.filter_eq_self]
    intro row hrow
    obtain ⟨member, -, rfl⟩ := List.mem_map.mp hrow
    exact decide_eq_true (unit_append_ne_empty indent member)
  rw [rowsOf_classDefinition, List.filter_cons_of_pos (by simpa using header_ne_empty c),
    List.filter_append, filter_spread, List.flatMap_map, ClassDefinition.codeRows,
    ← flatten_memberRows]
  simp only [hmembers]
  rw [List.map_flatten, ← List.flatMap_def]
  rfl

/-! ### Libraries that were put together -/

/-- What can be added to a library. -/
inductive Addition where
  | imported (i : Import)
  | declared (c : ClassDefinition)

namespace Addition

/-- The imports among some additions, in their order. -/
def imports (additions : List Addition) : List Import :=
  additions.filterMap fun
    | .imported i => some i
    | .declared _ => none

/-- The classes among some additions, in their order. -/
def classes (additions : List Addition) : List ClassDefinition :=
  additions.filterMap fun
    | .imported _ => none
    | .declared c => some c

theorem mem_imports {additions : List Addition} {i : Import} :
    i ∈ imports additions ↔ .imported i ∈ additions := by
  rw [imports, List.mem_filterMap]
  constructor
  · rintro ⟨a, ha, hi⟩
    cases a with
    | imported j => rwa [← Option.some.inj hi]
    | declared c => cases hi
  · exact fun h => ⟨.imported i, h, rfl⟩

theorem mem_classes {additions : List Addition} {c : ClassDefinition} :
    c ∈ classes additions ↔ .declared c ∈ additions := by
  rw [classes, List.mem_filterMap]
  constructor
  · rintro ⟨a, ha, hc⟩
    cases a with
    | imported i => cases hc
    | declared d => rwa [← Option.some.inj hc]
  · exact fun h => ⟨.declared c, h, rfl⟩

end Addition

namespace Library

/-- The library with one more import or class. -/
def extend (l : Library) : Addition → Library
  | .imported i => l.addImport i
  | .declared c => l.add c.fragments

/-- The library that some additions make. -/
def ofAdditions (additions : List Addition) : Library :=
  additions.foldl extend empty

theorem ofAdditions_concat (additions : List Addition) (a : Addition) :
    ofAdditions (additions ++ [a]) = (ofAdditions additions).extend a :=
  List.foldl_concat _ _ _ _

/-- Each import is kept where it was first asked for. -/
theorem imports_ofAdditions (additions : List Addition) :
    (ofAdditions additions).imports = (Addition.imports additions).eraseDups := by
  induction additions using List.reverseRecOn with
  | nil => rfl
  | append_singleton additions a ih =>
      rw [ofAdditions_concat]
      cases a with
      | imported i =>
          have himports : Addition.imports (additions ++ [.imported i])
              = Addition.imports additions ++ [i] := by simp [Addition.imports]
          rw [himports, List.eraseDups_append, extend, addImport, ih]
          by_cases hmem : i ∈ Addition.imports additions
          · simp [hmem, ih, List.removeAll]
          · simp [hmem, List.removeAll, List.eraseDups_cons]
      | declared c =>
          rw [extend, add, ih]
          simp [Addition.imports]

/-- The declarations are kept in the order in which they were added. -/
theorem body_ofAdditions (additions : List Addition) : (ofAdditions additions).body
    = (Addition.classes additions).map ClassDefinition.fragments := by
  induction additions using List.reverseRecOn with
  | nil => rfl
  | append_singleton additions a ih =>
      rw [ofAdditions_concat]
      cases a with
      | imported i =>
          have hbody : ((ofAdditions additions).addImport i).body
              = (ofAdditions additions).body := by
            unfold addImport
            split <;> rfl
          rw [extend, hbody, ih]
          simp [Addition.classes]
      | declared c =>
          rw [extend, add, ih]
          simp [Addition.classes]

/-- The rows of a library are its imports and its declarations with blank rows between them. -/
theorem rowsOf_fragments (indent : Indent) (l : Library) :
    rowsOf indent 0 l.fragments
      = spread ((if l.imports.isEmpty then [] else [l.imports.map Import.directive])
          ++ l.body.map (rowsOf indent 0)) := by
  have himports : rowsOf indent 0 (l.imports.flatMap Import.fragments)
      = l.imports.map Import.directive := by
    rw [← rowsOf_lines_zero indent (l.imports.map Import.directive)]
    exact congrArg _ (flatMap_line Import.directive l.imports)
  rw [fragments, rowsOf_append, rowsOf_append, himports, rowsOf_separated]
  cases himp : l.imports with
  | nil => simp [rowsOf]
  | cons i rest =>
      cases hbody : l.body with
      | nil => simp [rowsOf, spread]
      | cons declaration others => simp [rowsOf, Fragment.rows, spread]

/-- Without its blank rows a library is its imports and its classes. -/
theorem filter_ofAdditions (indent : Indent) (additions : List Addition) :
    (rowsOf indent 0 (ofAdditions additions).fragments).filter (· ≠ "")
      = (Addition.imports additions).eraseDups.map Import.directive
        ++ (Addition.classes additions).flatMap (ClassDefinition.codeRows indent.unit) := by
  have hdirectives : ∀ imports : List Import,
      (imports.map Import.directive).filter (· ≠ "") = imports.map Import.directive := by
    intro imports
    rw [List.filter_eq_self]
    intro row hrow
    obtain ⟨i, -, rfl⟩ := List.mem_map.mp hrow
    exact decide_eq_true (directive_ne_empty i)
  have himports : (if (ofAdditions additions).imports.isEmpty then []
      else [(ofAdditions additions).imports.map Import.directive]).flatMap (List.filter (· ≠ ""))
        = (ofAdditions additions).imports.map Import.directive := by
    cases himp : (ofAdditions additions).imports with
    | nil => rfl
    | cons i rest => simpa using hdirectives (i :: rest)
  rw [rowsOf_fragments, filter_spread, List.flatMap_append, himports, imports_ofAdditions,
    body_ofAdditions, List.map_map, List.flatMap_map]
  simp only [Function.comp_apply, filter_class]

end Library

/-! ### Rows without newlines -/

/-- The text has no newline in it. -/
def OneLine (text : String) : Prop :=
  '\n' ∉ text.toList

instance (text : String) : Decidable (OneLine text) :=
  inferInstanceAs (Decidable ('\n' ∉ text.toList))

@[simp] theorem oneLine_append {a b : String} : OneLine (a ++ b) ↔ OneLine a ∧ OneLine b := by
  simp [OneLine, String.toList_append]

theorem oneLine_join {texts : List String} (h : ∀ text ∈ texts, OneLine text) :
    OneLine (join ", " texts) :=
  notMem_join (by decide) h

/-- The texts that a field is made of. -/
def Field.texts (f : Field) : List String :=
  [f.type, f.name]

/-- The texts that a constructor is made of. -/
def Constructor.texts (k : Constructor) : List String :=
  k.className :: (k.positional ++ k.named)

/-- The texts of what a member runs. -/
def Body.texts : Body → List String
  | .arrow expression => [expression]
  | .lines body => body

/-- The texts of how a member is called. -/
def Call.texts : Call → List String
  | .getter => []
  | .withParameters parameters => [parameters]

/-- The texts that a member is made of. -/
def Callable.texts (f : Callable) : List String :=
  f.name :: f.returnType :: (f.call.texts ++ f.body.texts)

/-- The texts that a class is made of. -/
def ClassDefinition.texts (c : ClassDefinition) : List String :=
  c.name :: (c.superclass.toList ++ c.fields.flatMap Field.texts
    ++ c.constructor?.toList.flatMap Constructor.texts ++ c.methods.flatMap Callable.texts)

/-- The texts that an addition is made of. -/
def Addition.texts : Addition → List String
  | .imported i => [i.uri]
  | .declared c => c.texts

theorem oneLine_unit (indent : Indent) : OneLine indent.unit := by
  unfold Indent.unit
  split <;> decide

theorem oneLine_directive {i : Import} (h : OneLine i.uri) : OneLine i.directive := by
  simp +decide [Import.directive, h]

theorem oneLine_field {f : Field} (h : ∀ text ∈ f.texts, OneLine text) :
    OneLine f.declaration := by
  have htype := h f.type (by simp [Field.texts])
  have hname := h f.name (by simp [Field.texts])
  simp +decide [Field.declaration, htype, hname]

theorem oneLine_constructor {k : Constructor} (h : ∀ text ∈ k.texts, OneLine text) :
    OneLine k.declaration := by
  have hname := h k.className (by simp [Constructor.texts])
  have hnamed : OneLine (join ", " k.named) :=
    oneLine_join fun text htext => h text (by simp [Constructor.texts, htext])
  have hparameters : OneLine k.parameters := by
    unfold Constructor.parameters
    refine oneLine_join fun text htext => ?_
    rcases List.mem_append.mp htext with hpositional | hgroup
    · exact h text (by simp [Constructor.texts, hpositional])
    · split at hgroup
      · cases hgroup
      · rw [List.mem_singleton.mp hgroup]
        simp +decide [hnamed]
  unfold Constructor.declaration
  cases k.isConst <;> simp +decide [hname, hparameters]

theorem oneLine_signature {f : Callable} (h : ∀ text ∈ f.texts, OneLine text) :
    OneLine f.signature := by
  have hname := h f.name (by simp [Callable.texts])
  have htype := h f.returnType (by simp [Callable.texts])
  have hcall : ∀ text ∈ f.call.texts, OneLine text := fun text htext =>
    h text (by simp [Callable.texts, htext])
  unfold Callable.signature
  cases hf : f.call with
  | getter => cases f.isAsync <;> simp +decide [hname, htype]
  | withParameters parameters =>
      have hparameters := hcall parameters (by simp [hf, Call.texts])
      cases f.isAsync <;> simp +decide [hname, htype, hparameters]

theorem oneLine_callable (indent : Indent) {f : Callable} (h : ∀ text ∈ f.texts, OneLine text) :
    ∀ row ∈ f.codeRows indent.unit, OneLine row := by
  have hsignature := oneLine_signature h
  have hbody : ∀ text ∈ f.body.texts, OneLine text := fun text htext =>
    h text (by simp [Callable.texts, htext])
  intro row hrow
  rcases List.mem_append.mp hrow with hannotation | hrow
  · split at hannotation
    · rw [List.mem_singleton.mp hannotation]
      decide
    · cases hannotation
  · cases hf : f.body with
    | arrow expression =>
        rw [hf] at hrow hbody
        have hexpression := hbody expression List.mem_cons_self
        rw [List.mem_singleton.mp hrow]
        simp +decide [hsignature, hexpression]
    | lines body =>
        rw [hf] at hrow hbody
        rcases List.mem_cons.mp hrow with rfl | hrow
        · simp +decide [hsignature]
        · rcases List.mem_append.mp hrow with hline | hclose
          · obtain ⟨text, htext, rfl⟩ := List.mem_map.mp hline
            exact oneLine_append.mpr ⟨oneLine_unit indent, hbody text htext⟩
          · rw [List.mem_singleton.mp hclose]
            decide

theorem oneLine_header {c : ClassDefinition} (h : ∀ text ∈ c.texts, OneLine text) :
    OneLine c.header := by
  have hname := h c.name (by simp [ClassDefinition.texts])
  unfold ClassDefinition.header
  cases hc : c.superclass with
  | none => simp +decide [hname]
  | some superclass =>
      have hsuperclass := h superclass (by simp [ClassDefinition.texts, hc])
      simp +decide [hname, hsuperclass]

theorem oneLine_class (indent : Indent) {c : ClassDefinition}
    (h : ∀ text ∈ c.texts, OneLine text) : ∀ row ∈ c.codeRows indent.unit, OneLine row := by
  intro row hrow
  rcases List.mem_cons.mp hrow with rfl | hrow
  · exact oneLine_header h
  · rcases List.mem_append.mp hrow with hrow | hclose
    · obtain ⟨member, hmember, rfl⟩ := List.mem_map.mp hrow
      refine oneLine_append.mpr ⟨oneLine_unit indent, ?_⟩
      rw [List.mem_append, List.mem_append] at hmember
      rcases hmember with (hfield | hconstructor) | hmethod
      · obtain ⟨f, hf, rfl⟩ := List.mem_map.mp hfield
        refine oneLine_field fun text htext => h text ?_
        simp only [ClassDefinition.texts, List.mem_cons, List.mem_append, List.mem_flatMap]
        exact Or.inr (Or.inl (Or.inl (Or.inr ⟨f, hf, htext⟩)))
      · obtain ⟨k, hk, rfl⟩ := List.mem_map.mp hconstructor
        refine oneLine_constructor fun text htext => h text ?_
        simp only [ClassDefinition.texts, List.mem_cons, List.mem_append, List.mem_flatMap]
        exact Or.inr (Or.inl (Or.inr ⟨k, hk, htext⟩))
      · obtain ⟨f, hf, hmember⟩ := List.mem_flatMap.mp hmethod
        refine oneLine_callable indent (fun text htext => h text ?_) member hmember
        simp only [ClassDefinition.texts, List.mem_cons, List.mem_append, List.mem_flatMap]
        exact Or.inr (Or.inr ⟨f, hf, htext⟩)
    · rw [List.mem_singleton.mp hclose]
      decide

/-- Every row of a library that is made of such texts is such a text. -/
theorem oneLine_ofAdditions (indent : Indent) {additions : List Addition}
    (h : ∀ a ∈ additions, ∀ text ∈ a.texts, OneLine text) :
    ∀ row ∈ rowsOf indent 0 (Library.ofAdditions additions).fragments, OneLine row := by
  intro row hrow
  by_cases hempty : row = ""
  · rw [hempty]
    decide
  · have hcode : row ∈ (rowsOf indent 0 (Library.ofAdditions additions).fragments).filter
        (· ≠ "") := List.mem_filter.mpr ⟨hrow, decide_eq_true hempty⟩
    rw [Library.filter_ofAdditions, List.mem_append] at hcode
    rcases hcode with hdirective | hclass
    · obtain ⟨i, hi, rfl⟩ := List.mem_map.mp hdirective
      refine oneLine_directive (h (.imported i) ?_ i.uri List.mem_cons_self)
      exact Addition.mem_imports.mp (List.mem_eraseDups.mp hi)
    · obtain ⟨c, hc, hrow⟩ := List.mem_flatMap.mp hclass
      exact oneLine_class indent (h (.declared c) (Addition.mem_classes.mp hc)) row hrow

end UseCases.Dart
