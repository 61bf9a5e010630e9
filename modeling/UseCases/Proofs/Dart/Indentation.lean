/-
The place of a fragment does not show in it.

A fragment is described once, as the rows that it has at the outermost level.  A block moves the
rows of its body one unit in, and nothing else moves anything.  The page knows none of this: it
counts levels up and down while it writes.  Since a block leaves the level as it found it, what the
page writes at level `n` are the rows of the outermost level, moved in `n` times.  An empty row is
never moved.
-/
import Mathlib.Logic.Function.Iterate
import UseCases.Proofs.Dart.Layout

namespace UseCases.Dart

open Text

variable {indent : Indent} {unit : String} {level : Nat}

/-! ### Rows that can be moved -/

/-- A row of code, or an empty one, which has no indentation. -/
inductive Row where
  | empty
  | code (text : String)
deriving Repr, DecidableEq

namespace Row

/-- The row without the newline that ends it. -/
def text : Row → String
  | .empty => ""
  | .code text => text

/-- The row one unit further in. -/
def moved (unit : String) : Row → Row
  | .empty => .empty
  | .code text => .code (unit ++ text)

/-- The row some units further in. -/
def movedBy (unit : String) (count : Nat) : Row → Row :=
  (moved unit)^[count]

theorem movedBy_empty (unit : String) (count : Nat) : movedBy unit count .empty = .empty :=
  Function.iterate_fixed rfl count

theorem movedBy_succ (unit : String) (count : Nat) (row : Row) :
    movedBy unit (count + 1) row = moved unit (movedBy unit count row) :=
  Function.iterate_succ_apply' (moved unit) count row

theorem movedBy_moved (unit : String) (count : Nat) (row : Row) :
    movedBy unit count (moved unit row) = movedBy unit (count + 1) row :=
  (Function.iterate_succ_apply (moved unit) count row).symm

theorem movedBy_add (unit : String) (m n : Nat) (row : Row) :
    movedBy unit m (movedBy unit n row) = movedBy unit (m + n) row :=
  (Function.iterate_add_apply (moved unit) m n row).symm

/-- A row of code is moved by as much as a line of its level is indented. -/
theorem text_movedBy_code (indent : Indent) (level : Nat) (text : String) :
    (movedBy indent.unit level (.code text)).text = Page.indentation indent level ++ text := by
  have hcode : movedBy indent.unit level (.code text)
      = .code (Page.indentation indent level ++ text) := by
    induction level with
    | zero => simp [movedBy, Page.indentation]
    | succ level ih => rw [movedBy_succ, ih, moved, Page.indentation, String.append_assoc]
  rw [hcode, Row.text]

end Row

/-- The text of some rows. -/
def sheetText (rows : List Row) : String :=
  String.ofList (rowsText (rows.map Row.text))

theorem sheetText_append (rows more : List Row) :
    sheetText (rows ++ more) = sheetText rows ++ sheetText more := by
  simp [sheetText, rowsText_append, String.ofList_append]

/-! ### Fragments at the outermost level -/

mutual

/-- The rows of a fragment at the outermost level. -/
def Fragment.outline (unit : String) : Fragment → List Row
  | .line text => [.code text]
  | .blank => [.empty]
  | .block header body close =>
    .code header :: ((outlineOf unit body).map (Row.moved unit) ++ close.toList.map .code)
  | .sequence inner => outlineOf unit inner

/-- The rows of fragments one after the other. -/
def outlineOf (unit : String) : List Fragment → List Row
  | [] => []
  | f :: fs => f.outline unit ++ outlineOf unit fs

end

theorem outlineOf_eq_flatMap (unit : String) (fs : List Fragment) :
    outlineOf unit fs = fs.flatMap (Fragment.outline unit) := by
  induction fs with
  | nil => rfl
  | cons f fs ih => rw [outlineOf, List.flatMap_cons, ih]

theorem outlineOf_append (unit : String) (fs gs : List Fragment) :
    outlineOf unit (fs ++ gs) = outlineOf unit fs ++ outlineOf unit gs := by
  simp [outlineOf_eq_flatMap]

/-- The rows of a fragment at some level. -/
def Fragment.laid (unit : String) (level : Nat) (f : Fragment) : List Row :=
  (f.outline unit).map (Row.movedBy unit level)

theorem Fragment.laid_zero (unit : String) (f : Fragment) : f.laid unit 0 = f.outline unit :=
  List.map_id _

theorem Fragment.laid_succ (unit : String) (level : Nat) (f : Fragment) :
    f.laid unit (level + 1) = (f.laid unit level).map (Row.moved unit) := by
  rw [Fragment.laid, Fragment.laid, List.map_map]
  exact List.map_congr_left fun row _ => Row.movedBy_succ unit level row

theorem Fragment.laid_add (unit : String) (m n : Nat) (f : Fragment) :
    f.laid unit (m + n) = (f.laid unit n).map (Row.movedBy unit m) := by
  rw [Fragment.laid, Fragment.laid, List.map_map]
  exact List.map_congr_left fun row _ => (Row.movedBy_add unit m n row).symm

mutual

/-- The rows that the page writes are those of the outermost level, moved in. -/
theorem Fragment.rows_eq (indent : Indent) (level : Nat) (f : Fragment) :
    f.rows indent level = (f.laid indent.unit level).map Row.text := by
  cases f with
  | line text => simp [Fragment.rows, Fragment.laid, Fragment.outline, Row.text_movedBy_code]
  | blank => simp [Fragment.rows, Fragment.laid, Fragment.outline, Row.movedBy_empty, Row.text]
  | block header body close =>
      have hbody : rowsOf indent (level + 1) body
          = (((outlineOf indent.unit body).map (Row.moved indent.unit)).map
              (Row.movedBy indent.unit level)).map Row.text := by
        rw [rowsOf_eq indent (level + 1) body]
        simp [Row.movedBy_moved]
      simp [Fragment.rows, Fragment.laid, Fragment.outline, Row.text_movedBy_code, hbody]
  | sequence inner =>
      rw [Fragment.rows, rowsOf_eq indent level inner]
      rfl

theorem rowsOf_eq (indent : Indent) (level : Nat) (fs : List Fragment) :
    rowsOf indent level fs
      = ((outlineOf indent.unit fs).map (Row.movedBy indent.unit level)).map Row.text := by
  cases fs with
  | nil => rfl
  | cons f fs =>
      rw [rowsOf, Fragment.rows_eq indent level f, rowsOf_eq indent level fs, outlineOf,
        List.map_append, List.map_append]
      rfl

end

/-! ### What a page writes -/

namespace Page

/-- The page with some rows written on it. -/
def write (p : Page) (rows : List Row) : Page :=
  { p with text := p.text ++ sheetText rows }

/-- A fragment is written at the level of the page, and the page stays at that level. -/
theorem fragment_eq_write (p : Page) (f : Fragment) :
    p.fragment f = p.write (f.laid p.indent.unit p.level) := by
  rw [fragment_eq, Fragment.rows_eq]
  rfl

theorem fragments_eq_write (p : Page) (fs : List Fragment) :
    p.fragments fs = p.write (fs.flatMap (Fragment.laid p.indent.unit p.level)) := by
  rw [fragments_eq, rowsOf_eq, outlineOf_eq_flatMap, List.map_flatMap]
  rfl

end Page

/-! ### Nested sequences -/

mutual

/-- A fragment without sequences in it. -/
def Fragment.unnested : Fragment → List Fragment
  | .line text => [.line text]
  | .blank => [.blank]
  | .block header body close => [.block header (unnestedOf body) close]
  | .sequence inner => unnestedOf inner

/-- Fragments without sequences in them. -/
def unnestedOf : List Fragment → List Fragment
  | [] => []
  | f :: fs => f.unnested ++ unnestedOf fs

end

mutual

theorem outlineOf_unnested (unit : String) (f : Fragment) :
    outlineOf unit f.unnested = f.outline unit := by
  cases f with
  | line text => simp [Fragment.unnested, outlineOf]
  | blank => simp [Fragment.unnested, outlineOf]
  | block header body close =>
      simp [Fragment.unnested, outlineOf, Fragment.outline, outlineOf_unnestedOf unit body]
  | sequence inner =>
      rw [Fragment.unnested, Fragment.outline, outlineOf_unnestedOf unit inner]

theorem outlineOf_unnestedOf (unit : String) (fs : List Fragment) :
    outlineOf unit (unnestedOf fs) = outlineOf unit fs := by
  cases fs with
  | nil => rfl
  | cons f fs =>
      rw [unnestedOf, outlineOf_append, outlineOf_unnested unit f, outlineOf_unnestedOf unit fs,
        outlineOf]

end

/-- Sequences only concatenate, however they are nested. -/
theorem Page.fragments_unnested (p : Page) (f : Fragment) :
    p.fragments f.unnested = p.fragment f := by
  rw [Page.fragments_eq_write, Page.fragment_eq_write, Fragment.laid, ← outlineOf_unnested,
    outlineOf_eq_flatMap, List.map_flatMap]
  rfl

/-! ### Fragments inside others -/

/-- What stands around a fragment: a block or a sequence, with what is before and after it. -/
inductive Layer where
  | block (header : String) (before after : List Fragment) (close : Option String)
  | sequence (before after : List Fragment)

/-- The fragment inside some layers, the outermost one first. -/
def Fragment.within (f : Fragment) : List Layer → Fragment
  | [] => f
  | .block header before after close :: layers =>
    .block header (before ++ f.within layers :: after) close
  | .sequence before after :: layers => .sequence (before ++ f.within layers :: after)

/-- How many of the layers are blocks. -/
def blocks : List Layer → Nat
  | [] => 0
  | .block .. :: layers => blocks layers + 1
  | .sequence .. :: layers => blocks layers

/-- Inside some layers a fragment has the rows of the outermost level, moved in once for each
block. -/
theorem exists_outline_within (unit : String) (layers : List Layer) :
    ∃ above below, ∀ f : Fragment,
      (f.within layers).outline unit = above ++ (f.laid unit (blocks layers) ++ below) := by
  induction layers with
  | nil => exact ⟨[], [], fun f => by simp [Fragment.within, blocks, Fragment.laid_zero]⟩
  | cons layer layers ih =>
      obtain ⟨above, below, hrows⟩ := ih
      cases layer with
      | block header before after close =>
          refine ⟨.code header :: (outlineOf unit before ++ above).map (Row.moved unit),
            (below ++ outlineOf unit after).map (Row.moved unit) ++ close.toList.map .code,
            fun f => ?_⟩
          rw [Fragment.within, Fragment.outline, outlineOf_append, outlineOf, hrows, blocks,
            Fragment.laid_succ]
          simp
      | sequence before after =>
          refine ⟨outlineOf unit before ++ above, below ++ outlineOf unit after, fun f => ?_⟩
          rw [Fragment.within, Fragment.outline, outlineOf_append, outlineOf, hrows, blocks]
          simp

/-! ### Steps on a page -/

/-- What can be done with a page. -/
inductive Step where
  | line (text : String)
  | blank
  | deeper
  | shallower
  | fragment (f : Fragment)
  | fragments (fs : List Fragment)

namespace Page

def step (p : Page) : Step → Page
  | .line text => p.line text
  | .blank => p.blank
  | .deeper => p.deeper
  | .shallower => p.shallower
  | .fragment f => p.fragment f
  | .fragments fs => p.fragments fs

def run (p : Page) (steps : List Step) : Page :=
  steps.foldl step p

theorem step_indent (p : Page) (s : Step) : (p.step s).indent = p.indent := by
  cases s with
  | fragment f => rw [step, fragment_eq_write, write]
  | fragments fs => rw [step, fragments_eq_write, write]
  | _ => rfl

theorem run_indent (p : Page) (steps : List Step) : (p.run steps).indent = p.indent := by
  induction steps generalizing p with
  | nil => rfl
  | cons s steps ih => exact (ih (p.step s)).trans (step_indent p s)

/-- The page with more text in front. -/
def behind (p : Page) (front : String) : Page :=
  { p with text := front ++ p.text }

theorem write_behind (p : Page) (front : String) (rows : List Row) :
    (p.behind front).write rows = (p.write rows).behind front := by
  simp [write, behind, String.append_assoc]

/-- No step reads what was written before. -/
theorem step_behind (p : Page) (front : String) (s : Step) :
    (p.behind front).step s = (p.step s).behind front := by
  cases s with
  | line text => simp [step, line, behind, String.append_assoc]
  | blank => simp [step, blank, behind, String.append_assoc]
  | deeper => rfl
  | shallower => rfl
  | fragment f =>
      rw [step, step, fragment_eq_write, fragment_eq_write, ← write_behind]
      rfl
  | fragments fs =>
      rw [step, step, fragments_eq_write, fragments_eq_write, ← write_behind]
      rfl

theorem run_behind (p : Page) (front : String) (steps : List Step) :
    (p.behind front).run steps = (p.run steps).behind front := by
  induction steps generalizing p with
  | nil => rfl
  | cons s steps ih => exact (congrArg (run · steps) (step_behind p front s)).trans (ih (p.step s))

/-- What stands around a fragment and what is done later fix where its rows are. -/
theorem exists_text_around (p : Page) (layers : List Layer) (later : List Step) :
    ∃ above below, ∀ f : Fragment, ((p.step (.fragment (f.within layers))).run later).text
      = above ++ sheetText ((f.laid p.indent.unit 0).map
          (Row.movedBy p.indent.unit (p.level + blocks layers))) ++ below := by
  obtain ⟨above, below, hrows⟩ := exists_outline_within p.indent.unit layers
  refine ⟨p.text ++ sheetText (above.map (Row.movedBy p.indent.unit p.level)),
    sheetText (below.map (Row.movedBy p.indent.unit p.level))
      ++ (Page.run { p with text := "" } later).text, fun f => ?_⟩
  have hlaid : (f.within layers).laid p.indent.unit p.level
      = above.map (Row.movedBy p.indent.unit p.level)
        ++ ((f.laid p.indent.unit 0).map (Row.movedBy p.indent.unit (p.level + blocks layers))
          ++ below.map (Row.movedBy p.indent.unit p.level)) := by
    rw [Fragment.laid, hrows, List.map_append, List.map_append, ← Fragment.laid_add,
      ← Fragment.laid_add, Nat.add_zero]
  have hstep : p.step (.fragment (f.within layers)) = Page.behind { p with text := "" }
      (p.text ++ sheetText ((f.within layers).laid p.indent.unit p.level)) := by
    rw [step, fragment_eq_write]
    simp [write, behind]
  rw [hstep, run_behind, hlaid]
  simp [behind, sheetText_append, String.append_assoc]

end Page

/--
**Layout does not depend on the place.**  A fragment appends rows to the text and leaves the rest
of the page as it was; the rows depend on the unit of indentation, the level and the fragment alone.
A sequence appends what its members append, and sequences inside sequences make no difference.  One
level deeper the rows are the same, each moved in by one unit unless it is empty.  So whatever is
done with a page before and after, what stands around a fragment fixes where its rows are, and they
are its rows at the outermost level, moved in by the level of the page and once more for each block
around it.
-/
theorem layout_ignores_place :
    (∀ (p : Page) (f : Fragment), p.fragment f = p.write (f.laid p.indent.unit p.level)) ∧
    (∀ (p : Page) (fs : List Fragment), p.fragment (.sequence fs)
      = p.write (fs.flatMap (Fragment.laid p.indent.unit p.level))) ∧
    (∀ (p : Page) (f : Fragment), p.fragments f.unnested = p.fragment f) ∧
    (∀ (p : Page) (f : Fragment), p.deeper.fragment f
      = p.deeper.write ((f.laid p.indent.unit p.level).map (Row.moved p.indent.unit))) ∧
    (∀ (indent : Indent) (f : Fragment), layOut indent [f] = sheetText (f.laid indent.unit 0)) ∧
    ∀ (indent : Indent) (earlier later : List Step) (layers : List Layer), ∃ above below,
      ∀ f : Fragment,
        ((Page.empty indent).run (earlier ++ .fragment (f.within layers) :: later)).text
          = above ++ sheetText ((f.laid indent.unit 0).map (Row.movedBy indent.unit
              (((Page.empty indent).run earlier).level + blocks layers))) ++ below := by
  refine ⟨Page.fragment_eq_write, fun p fs => ?_, Page.fragments_unnested, fun p f => ?_,
    fun indent f => ?_, fun indent earlier later layers => ?_⟩
  · rw [Page.fragment, Page.fragments_eq_write]
  · rw [Page.fragment_eq_write, ← Fragment.laid_succ]
    rfl
  · rw [layOut, Page.fragments_eq_write]
    simp [Page.write, Page.empty]
  · have haround := ((Page.empty indent).run earlier).exists_text_around layers later
    rw [Page.run_indent] at haround
    obtain ⟨above, below, htext⟩ := haround
    refine ⟨above, below, fun f => ?_⟩
    rw [Page.run, List.foldl_append]
    exact htext f

end UseCases.Dart
