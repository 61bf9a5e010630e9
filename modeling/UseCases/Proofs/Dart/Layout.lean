/-
Generated code as rows.

A page only grows: laying out a fragment appends its rows to the text, each with its
indentation and a newline, and leaves the level as it was.  The rows depend on the fragment and
on the level it is laid out at, and on nothing that was written before.
-/
import UseCases.Dart.Library
import UseCases.Proofs.Text.Scanning

namespace UseCases.Dart

open Text

/-! ### Fragments -/

mutual

/-- The rows of a fragment at some level. -/
def Fragment.rows (indent : Indent) (level : Nat) : Fragment → List String
  | .line text => [Page.indentation indent level ++ text]
  | .blank => [""]
  | .block header body close =>
    (Page.indentation indent level ++ header) ::
      (rowsOf indent (level + 1) body
        ++ close.toList.map fun text => Page.indentation indent level ++ text)
  | .sequence inner => rowsOf indent level inner

/-- The rows of fragments one after the other. -/
def rowsOf (indent : Indent) (level : Nat) : List Fragment → List String
  | [] => []
  | f :: fs => f.rows indent level ++ rowsOf indent level fs

end

/-- The page with more rows on it. -/
def Page.append (p : Page) (rows : List String) : Page :=
  { p with text := p.text ++ String.ofList (rowsText rows) }

theorem Page.append_nil (p : Page) : p.append [] = p := by
  simp [Page.append, rowsText]

theorem Page.append_append (p : Page) (rows more : List String) :
    (p.append rows).append more = p.append (rows ++ more) := by
  simp [Page.append, rowsText_append, String.ofList_append, String.append_assoc]

theorem Page.line_eq (p : Page) (text : String) :
    p.line text = p.append [Page.indentation p.indent p.level ++ text] := by
  simp [Page.line, Page.append, rowsText, String.ofList_append, String.append_assoc]

theorem Page.blank_eq (p : Page) : p.blank = p.append [""] := by
  simp [Page.blank, Page.append, rowsText]

mutual

/-- **A fragment appends its rows**, and nothing else of the page changes. -/
theorem Page.fragment_eq (p : Page) (f : Fragment) :
    p.fragment f = p.append (f.rows p.indent p.level) := by
  cases f with
  | line text => rw [Page.fragment, Fragment.rows, Page.line_eq]
  | blank => rw [Page.fragment, Fragment.rows, Page.blank_eq]
  | block header body close =>
      have hbody : (((p.line header).deeper).fragments body).shallower
          = p.append ((Page.indentation p.indent p.level ++ header) ::
              rowsOf p.indent (p.level + 1) body) := by
        rw [Page.fragments_eq ((p.line header).deeper) body, Page.line_eq]
        simp [Page.deeper, Page.shallower, Page.append, rowsText, String.append_assoc]
      rw [Fragment.rows]
      cases close with
      | none =>
          rw [Page.fragment, hbody]
          simp
      | some text =>
          rw [Page.fragment, hbody, Page.line_eq, Page.append_append]
          rfl
  | sequence inner =>
      rw [Page.fragment, Fragment.rows]
      exact Page.fragments_eq p inner

theorem Page.fragments_eq (p : Page) (fs : List Fragment) :
    p.fragments fs = p.append (rowsOf p.indent p.level fs) := by
  cases fs with
  | nil => rw [Page.fragments, rowsOf, Page.append_nil]
  | cons f fs =>
      rw [Page.fragments, Page.fragment_eq p f, Page.fragments_eq (p.append _) fs,
        Page.append_append, rowsOf]
      rfl

end

theorem rowsOf_append (indent : Indent) (level : Nat) (fs gs : List Fragment) :
    rowsOf indent level (fs ++ gs) = rowsOf indent level fs ++ rowsOf indent level gs := by
  induction fs with
  | nil => rfl
  | cons f fs ih => rw [List.cons_append, rowsOf, rowsOf, ih, List.append_assoc]

/-- Single lines are laid out one row each. -/
theorem rowsOf_lines (indent : Indent) (level : Nat) (texts : List String) :
    rowsOf indent level (texts.map .line)
      = texts.map fun text => Page.indentation indent level ++ text := by
  induction texts with
  | nil => rfl
  | cons text texts ih => rw [List.map_cons, rowsOf, ih, Fragment.rows]; rfl

/-- At the outermost level single lines are their rows. -/
theorem rowsOf_lines_zero (indent : Indent) (texts : List String) :
    rowsOf indent 0 (texts.map .line) = texts := by
  rw [rowsOf_lines]
  simp [Page.indentation]

/-- What is a line each is the lines of the whole. -/
theorem flatMap_line {α : Type} (text : α → String) (xs : List α) :
    (xs.flatMap fun x => [Fragment.line (text x)]) = (xs.map text).map .line := by
  rw [List.map_map]
  exact List.map_eq_flatMap.symm

theorem layOut_eq (indent : Indent) (fs : List Fragment) :
    (layOut indent fs).toList = rowsText (rowsOf indent 0 fs) := by
  rw [layOut, Page.fragments_eq]
  simp [Page.append, Page.empty]

/-! ### Classes and libraries -/

/-- The rows of a class. -/
theorem rowsOf_class (indent : Indent) (c : ClassDefinition) :
    rowsOf indent 0 c.fragments
      = c.header :: (rowsOf indent 1 (separated c.groups) ++ ["\x7d"]) := by
  simp [ClassDefinition.fragments, Fragment.braced, rowsOf, Fragment.rows, Page.indentation]

theorem mem_imports_addImports {i : Import} {l : Library} {imports : List Import} :
    i ∈ (l.addImports imports).imports ↔ i ∈ l.imports ∨ i ∈ imports := by
  unfold Library.addImports
  induction imports generalizing l with
  | nil => simp
  | cons j js ih =>
      rw [List.foldl_cons, ih]
      unfold Library.addImport
      split
      · rename_i hmem
        constructor
        · rintro (h | h)
          · exact Or.inl h
          · exact Or.inr (List.mem_cons_of_mem j h)
        · rintro (h | h)
          · exact Or.inl h
          · rcases List.mem_cons.mp h with rfl | h
            · exact Or.inl hmem
            · exact Or.inr h
      · simp [or_assoc]

theorem body_addImports (l : Library) (imports : List Import) :
    (l.addImports imports).body = l.body := by
  unfold Library.addImports
  induction imports generalizing l with
  | nil => rfl
  | cons i is ih =>
      rw [List.foldl_cons, ih]
      unfold Library.addImport
      split <;> rfl

/-- **The rows of a library with imports and one class.** -/
theorem rows_library (indent : Indent) {imports : List Import} (himports : imports ≠ [])
    (c : ClassDefinition) :
    ((Library.empty.addImports imports).add c.fragments).render indent
      = String.ofList (rowsText
          ((Library.empty.addImports imports).imports.map Import.directive ++ "" ::
            c.header :: (rowsOf indent 1 (separated c.groups) ++ ["\x7d"]))) := by
  have hbody : (Library.empty.addImports imports).body = [] := body_addImports _ _
  have hne : (Library.empty.addImports imports).imports ≠ [] := by
    obtain ⟨i, hi⟩ := List.exists_mem_of_ne_nil imports himports
    exact List.ne_nil_of_mem (mem_imports_addImports.mpr (Or.inr hi))
  have hlines : ((Library.empty.addImports imports).imports.flatMap Import.fragments)
      = ((Library.empty.addImports imports).imports.map Import.directive).map .line :=
    flatMap_line Import.directive _
  have hfragments : ((Library.empty.addImports imports).add c.fragments).fragments
      = ((Library.empty.addImports imports).imports.map Import.directive).map .line
        ++ .blank :: c.fragments := by
    simp [Library.fragments, Library.add, hbody, hne, hlines, separated]
  rw [← String.toList_inj, Library.render, layOut_eq, String.toList_ofList, hfragments,
    rowsOf_append, rowsOf_lines_zero, rowsOf, rowsOf_class, Fragment.rows]
  rfl

end UseCases.Dart
