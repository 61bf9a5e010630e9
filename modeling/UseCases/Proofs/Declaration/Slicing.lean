/-
Extraction by byte offsets.

`Sliced` is extraction as a program does it that keeps offsets: it finds the parenthesis before the
end of a header, the bracket that matches it, the start of a group, the `=` of a default and the end
of a keyword as offsets, and takes every part of a declaration as a slice between two of them.  Each
slice and each difference is checked, and a fault in one of them would be the result of all.

There is none, whatever the source.  Every offset is the size of a text that the sliced text starts
with, and what is added to it is the one byte of a bracket or of `=`; so each reader below returns,
without a fault, what the reader of the same name returns that takes texts apart.  The two searches
for a matching bracket start at an opening one, which is what keeps their depth from running out.
-/
import UseCases.Declaration.Repository
import UseCases.Proofs.Dart.CommentDepth
import UseCases.Proofs.Dart.Offset
import UseCases.Proofs.Declaration.MethodParts

namespace UseCases.Declaration

open Dart Text

variable {text line : List Char} {openAt index : Nat} {opening closing : Char}

/-! ### Groups -/

/-- Where the group of a parameter list starts, and the bracket that opens it. -/
def groupStart? (text : List Char) : Option (Nat × Char) :=
  earlier? '\x7b' '[' (findTopLevel? '\x7b' text) (findTopLevel? '[' text)

theorem groupStart?_eq (text : List Char) :
    groupStart? text = (cut? (fun c => c == '\x7b' || c == '[') text).map
      fun cut => (utf8Length cut.before, cut.mark) := by
  have hearlier := earlier?_cutFrom? (show '\x7b' ≠ '[' by decide) 0 .top text
  simp only [Nat.zero_add] at hearlier
  rw [groupStart?, findTopLevel?_eq, findTopLevel?_eq]
  exact hearlier

/-- The bracket of a group is one byte long, is no quote, and does not close its group. -/
structure IsGroupOpening (opening : Char) : Prop where
  size : opening.utf8Size = 1
  quote : isQuote opening = false
  closing : opening ≠ (groupOf opening).1

theorem isGroupOpening {cut : Cut} (h : cut? (fun c => c == '\x7b' || c == '[') text = some cut) :
    IsGroupOpening cut.mark := by
  obtain ⟨-, hmark, -⟩ := cutFrom?_split h
  rcases Bool.or_eq_true_iff.mp hmark with hmark | hmark <;>
    rw [beq_iff_eq.mp hmark] <;> exact ⟨by decide, by decide, by decide⟩

/-- The text around the start of a group. -/
theorem groupStart?_split (h : groupStart? text = some (openAt, opening)) :
    ∃ cut : Cut, cut? (fun c => c == '\x7b' || c == '[') text = some cut ∧
      text = cut.before ++ opening :: cut.after ∧ openAt = utf8Length cut.before ∧
      cut.mark = opening := by
  rw [groupStart?_eq] at h
  obtain ⟨cut, hcut, heq⟩ := Option.map_eq_some_iff.mp h
  obtain ⟨rfl, rfl⟩ := Prod.mk.inj heq
  exact ⟨cut, hcut, (cutFrom?_split hcut).1, rfl, rfl⟩

/-! ### Headers -/

/-- The parenthesis stands one byte before the end of the header. -/
theorem openAt_of_header? {shape : Shape} {header : Header}
    (h : header? shape line = some header) :
    ∃ front, line = front ++ '(' :: header.rest ∧
      checkedSub (matchEnd line header.rest) 1 = .ok (utf8Length front) := by
  obtain ⟨front, rfl⟩ := opened_of_header? h
  refine ⟨front, rfl, ?_⟩
  rw [List.append_cons, matchEnd_append, utf8Length_append]
  exact checkedSub_add (utf8Length front) 1

/-! ### Readers that slice -/

namespace Sliced

/-- The text after a keyword, from the end of the match on. -/
def afterKeyword? (keyword : String) (text : List Char) : Except Fault (Option (List Char)) :=
  match Declaration.afterKeyword? keyword text with
  | none => return none
  | some rest => do
    let after ← sliceFrom text (matchEnd text rest)
    return some after

/-- The declaration without a leading `required`, and the kind it has then. -/
def takeRequired (kind : ParameterKind) (declaration : List Char) :
    Except Fault (List Char × ParameterKind) :=
  if kind = .named then do
    let after ← afterKeyword? "required" declaration
    match after with
    | some rest => return (rest, .requiredNamed)
    | none => return (declaration, kind)
  else return (declaration, kind)

/-- The declaration without a leading `final` or `covariant`. -/
def dropModifier (declaration : List Char) : Except Fault (List Char) := do
  let afterFinal ← afterKeyword? "final" declaration
  let afterCovariant ← afterKeyword? "covariant" declaration
  return (afterFinal.or afterCovariant).getD declaration

/-- An entry cut at its first `=` at depth zero. -/
def cutDefault (entry : List Char) : Except Fault (List Char × Option (List Char)) :=
  match findTopLevel? '=' entry with
  | none => return (entry, none)
  | some index => do
    let declaration ← sliceTo entry index
    let value ← sliceFrom entry (index + 1)
    return (trim declaration, some (trim value))

/-- The parameter that an entry declares. -/
def readParameter? (kind : ParameterKind) (entry : List Char) : Except Fault (Option Parameter) := do
  let cut ← cutDefault entry
  let required ← takeRequired kind cut.1
  let declaration ← dropModifier (trim required.1)
  let default := cut.2.filter fun v => !v.isEmpty
  return (typeAndName? declaration).map fun parts =>
    ⟨String.ofList parts.1, String.ofList parts.2, required.2, default.map String.ofList⟩

/-- The entry as a parameter of the given kind. -/
def readEntry (kind : ParameterKind) (entry : List Char) : Except Fault Entry := do
  let parameter ← readParameter? kind entry
  match parameter with
  | some parameter => return .accepted parameter
  | none => return .rejected entry

/-- The entries of one part of a parameter list. -/
def readEntries (kind : ParameterKind) (text : List Char) : Except Fault (List Entry) := do
  let entries ← sliceTopLevel ',' text
  entries.mapM (readEntry kind)

/-- The entries of a parameter list.  A group that is not closed runs to the end. -/
def entries (text : List Char) : Except Fault (List Entry) :=
  match groupStart? text with
  | none => readEntries .positional text
  | some (openAt, opening) => do
    let found ← findMatching text openAt opening (groupOf opening).1
    let inside ← slice text (openAt + 1) (found.getD (utf8Length text))
    let positional ← sliceTo text openAt
    let first ← readEntries .positional positional
    let grouped ← readEntries (groupOf opening).2 inside
    return first ++ grouped

/-- What a line of the given shape turns out to be. -/
def readDeclaration (shape : Shape) (number : Nat) (line : List Char) : Except Fault Outcome :=
  match header? shape line with
  | none => return .refused (refuse shape line)
  | some header => do
    let openAt ← checkedSub (matchEnd line header.rest) 1
    let close ← findMatching line openAt '(' ')'
    match close with
    | none => return .refused (.unclosed (String.ofList header.name))
    | some close => do
      let inside ← slice line (openAt + 1) close
      let found ← entries inside
      return .declared
        { name := String.ofList header.name
          payload := String.ofList header.payload
          parameters := accepted found
          shape
          line := number }
        (rejected found)

/-- The candidate on a line of stripped source, if it carries the marker of a shape. -/
def readLine? (number : Nat) (line : List Char) : Except Fault (Option Candidate) :=
  match classify (trim line) with
  | none => return none
  | some shape => do
    let outcome ← readDeclaration shape number (trim line)
    return some ⟨number, outcome⟩

/-- The candidates among lines that are numbered from `number` on. -/
def readLines (number : Nat) : List (List Char) → Except Fault (List Candidate)
  | [] => return []
  | line :: rest => do
    let candidate ← readLine? number line
    let later ← readLines (number + 1) rest
    return candidate.toList ++ later

/-- The candidates of a source text. -/
def extract (source : String) : Except Fault Extraction := do
  let stripped ← stripFrom .code source.toList
  let candidates ← readLines 1 (lines stripped)
  return ⟨candidates⟩

/-- The name of the first repository class that a source declares outside its comments. -/
def repositoryName? (source : String) : Except Fault (Option String) := do
  let stripped ← stripFrom .code source.toList
  return (firstRepository? true stripped).map String.ofList

/-! ### One entry -/

theorem afterKeyword?_eq (keyword : String) (text : List Char) :
    afterKeyword? keyword text = .ok (Declaration.afterKeyword? keyword text) := by
  rw [afterKeyword?]
  cases hkeyword : Declaration.afterKeyword? keyword text with
  | none => rfl
  | some rest => exact bind_eq_ok.mpr ⟨rest, sliceFrom_matchEnd (afterKeyword?_suffix hkeyword), rfl⟩

theorem takeRequired_eq (kind : ParameterKind) (declaration : List Char) :
    takeRequired kind declaration = .ok (Declaration.takeRequired kind declaration) := by
  rw [takeRequired, Declaration.takeRequired, afterKeyword?_eq, ok_bind]
  split
  · cases Declaration.afterKeyword? "required" declaration <;> rfl
  · rfl

theorem dropModifier_eq (declaration : List Char) :
    dropModifier declaration = .ok (Declaration.dropModifier declaration) := by
  rw [dropModifier, afterKeyword?_eq, ok_bind, afterKeyword?_eq]
  rfl

theorem cutDefault_eq (entry : List Char) :
    cutDefault entry = .ok (Declaration.cutDefault entry) := by
  rw [cutDefault, Declaration.cutDefault, findTopLevel?_eq]
  cases hcut : cut? (· == '=') entry with
  | none => rfl
  | some cut =>
      obtain ⟨htext, hmark, -⟩ := cutFrom?_split hcut
      rw [beq_iff_eq.mp hmark] at htext
      have hbefore : sliceTo entry (utf8Length cut.before) = .ok cut.before := by
        rw [htext]
        exact sliceTo_append cut.before ('=' :: cut.after)
      have hafter : sliceFrom entry (utf8Length cut.before + 1) = .ok cut.after := by
        rw [htext]
        exact sliceFrom_succ (by decide) cut.before cut.after
      exact bind_eq_ok.mpr ⟨_, hbefore, bind_eq_ok.mpr ⟨_, hafter, rfl⟩⟩

theorem readParameter?_eq (kind : ParameterKind) (entry : List Char) :
    readParameter? kind entry = .ok (Declaration.readParameter? kind entry) := by
  rw [readParameter?, cutDefault_eq, ok_bind, Declaration.readParameter?]
  obtain ⟨declaration, value⟩ := Declaration.cutDefault entry
  simp only [takeRequired_eq, ok_bind]
  obtain ⟨declaration, kind⟩ := Declaration.takeRequired kind declaration
  simp only [dropModifier_eq, ok_bind]
  cases typeAndName? (Declaration.dropModifier (trim declaration)) <;> rfl

theorem readEntry_eq (kind : ParameterKind) (entry : List Char) :
    readEntry kind entry = .ok (Entry.read kind entry) := by
  rw [readEntry, readParameter?_eq, ok_bind, Entry.read]
  cases Declaration.readParameter? kind entry <;> rfl

/-! ### Parameter lists -/

theorem readEntries_eq (kind : ParameterKind) (text : List Char) :
    readEntries kind text = .ok (Declaration.readEntries kind text) := by
  rw [readEntries, sliceTopLevel_eq, ok_bind, funext (readEntry_eq kind)]
  exact List.mapM_pure

/-- The inside of a group, which is closed or runs to the end. -/
theorem slice_group (h : IsGroupOpening opening) (front after : List Char) :
    (do let found ← findMatching (front ++ opening :: after) (utf8Length front) opening
          (groupOf opening).1
        slice (front ++ opening :: after) (utf8Length front + 1)
          (found.getD (utf8Length (front ++ opening :: after))))
      = .ok (((enclosed? opening (groupOf opening).1 after).map Enclosed.inside).getD after) := by
  rw [findMatching_eq h.closing h.quote, ok_bind]
  cases henclosed : enclosed? opening (groupOf opening).1 after with
  | none => exact sliceFrom_succ h.size front after
  | some e =>
      have htext := enclosed?_split henclosed
      rw [htext]
      exact slice_between h.size front e.inside e.after

theorem entries_eq (text : List Char) : entries text = .ok (Declaration.entries text) := by
  rw [entries, groupStart?_eq, Declaration.entries]
  cases hcut : cut? (fun c => c == '\x7b' || c == '[') text with
  | none =>
      rw [ofList_uncut hcut]
      exact (readEntries_eq .positional text).trans (congrArg Except.ok (List.append_nil _).symm)
  | some cut =>
      have hopening := isGroupOpening hcut
      have htext := (cutFrom?_split hcut).1
      rw [ofList_cut hcut]
      have hinside := slice_group hopening cut.before cut.after
      rw [← htext] at hinside
      obtain ⟨found, hfound, hslice⟩ := bind_eq_ok.mp hinside
      have hbefore : sliceTo text (utf8Length cut.before) = .ok cut.before := by
        rw [htext]
        exact sliceTo_append cut.before (cut.mark :: cut.after)
      simp only [Option.map_some, hfound, hslice, hbefore, readEntries_eq, ok_bind]
      rfl

/-! ### Declarations -/

theorem readDeclaration_eq (shape : Shape) (number : Nat) (line : List Char) :
    readDeclaration shape number line = .ok (Declaration.readDeclaration shape number line) := by
  rw [readDeclaration, Declaration.readDeclaration]
  cases hheader : header? shape line with
  | none => rfl
  | some header =>
      obtain ⟨front, rfl, hopenAt⟩ := openAt_of_header? hheader
      have hmatching := findMatching_eq (show '(' ≠ ')' by decide) (by decide) front header.rest
      simp only [hopenAt, ok_bind, hmatching]
      cases henclosed : enclosed? '(' ')' header.rest with
      | none => rfl
      | some e =>
          have hslice : slice (front ++ '(' :: (e.inside ++ ')' :: e.after)) (utf8Length front + 1)
              (utf8Length front + ('('.utf8Size + utf8Length e.inside)) = .ok e.inside :=
            slice_between (by decide) front e.inside e.after
          rw [← enclosed?_split henclosed] at hslice
          simp only [Option.map_some, hslice, ok_bind, entries_eq]
          rfl

theorem readLine?_eq (number : Nat) (line : List Char) :
    readLine? number line = .ok (Declaration.readLine? number line) := by
  rw [readLine?, Declaration.readLine?]
  cases classify (trim line) with
  | none => rfl
  | some shape => exact bind_eq_ok.mpr ⟨_, readDeclaration_eq shape number (trim line), rfl⟩

theorem readLines_eq (number : Nat) (ls : List (List Char)) :
    readLines number ls = .ok (Declaration.readLines number ls) := by
  induction ls generalizing number with
  | nil => rfl
  | cons line rest ih => rw [readLines, readLine?_eq, ok_bind, ih]; rfl

/-! ### Sources -/

theorem extract_eq (source : String) : extract source = .ok (Declaration.extract source) := by
  rw [extract, stripFrom_code, ok_bind, readLines_eq]
  rfl

theorem repositoryName?_eq (source : String) :
    repositoryName? source = .ok (Declaration.repositoryName? source) := by
  rw [repositoryName?, stripFrom_code]
  rfl

end Sliced

/-! ### The two searches for a matching bracket -/

/-- From the parenthesis of a header on no bracket is closed that was not opened, and the one that
is found stands behind the parenthesis. -/
theorem findMatching_of_header? {shape : Shape} {header : Header}
    (h : header? shape line = some header) :
    ∃ openAt found, checkedSub (matchEnd line header.rest) 1 = .ok openAt ∧
      findMatching line openAt '(' ')' = .ok found ∧ ∀ close ∈ found, openAt + 1 ≤ close := by
  obtain ⟨front, rfl, hopenAt⟩ := openAt_of_header? h
  refine ⟨_, _, hopenAt, findMatching_eq (by decide) (by decide) front header.rest, ?_⟩
  intro close hclose
  obtain ⟨e, -, rfl⟩ := Option.map_eq_some_iff.mp hclose
  exact Nat.add_le_add_left (Nat.le_add_right 1 _) _

/-- From the bracket of a group on no bracket is closed that was not opened, and the group ends
behind it, where it is closed or with the text. -/
theorem findMatching_of_groupStart? (h : groupStart? text = some (openAt, opening)) :
    ∃ found, findMatching text openAt opening (groupOf opening).1 = .ok found ∧
      openAt + 1 ≤ found.getD (utf8Length text) := by
  obtain ⟨cut, hcut, htext, rfl, rfl⟩ := groupStart?_split h
  have hopening := isGroupOpening hcut
  refine ⟨_, (congrArg (findMatching · _ _ _) htext).trans
    (findMatching_eq hopening.closing hopening.quote cut.before cut.after), ?_⟩
  cases enclosed? cut.mark (groupOf cut.mark).1 cut.after with
  | none =>
      rw [Option.map_none, Option.getD_none]
      have hinside := (isInside_append cut.before cut.mark cut.after).2
      rwa [← htext] at hinside
  | some e =>
      rw [Option.map_some, Option.getD_some, hopening.size]
      exact Nat.add_le_add_left (Nat.le_add_right 1 _) _

/-- Behind the `=` of a default there is a boundary in the entry. -/
theorem isBoundary_after_equals {entry : List Char} (h : findTopLevel? '=' entry = some index) :
    index + 1 ≤ utf8Length entry ∧ IsBoundary entry (index + 1) := by
  obtain ⟨cut, -, htext, rfl⟩ := findTopLevel?_split h
  have hafter : IsBoundary entry (utf8Length cut.before + 1) := by
    refine ⟨cut.before ++ ['='], cut.after, by rw [htext, List.append_cons], ?_⟩
    rw [utf8Length_append]
    rfl
  exact ⟨hafter.le, hafter⟩

/-! ### Every source -/

/--
**Extraction by offsets has no fault on any source**, and it finds what extraction finds.

The comments are stripped, the candidates are read and the repository is found without a slice that
is out of order, out of range or off a boundary, and without a negative difference; the end of a
block comment is only met where one is open.  Of the offsets on the way: what the two searches return
is where a character of their text starts, the parenthesis of a header and the bracket of a group are
matched by searches whose depth does not run out, the slices behind them are in order, and so are the
slices around the `=` of a default.
-/
theorem extraction_within_bounds (source : String) :
    stripFrom .code source.toList = .ok (stripComments source.toList) ∧
    Sliced.extract source = .ok (extract source) ∧
    Sliced.repositoryName? source = .ok (repositoryName? source) ∧
    (∀ separator text index, findTopLevel? separator text = some index → IsInside text index) ∧
    (∀ text openAt opening closing index,
      findMatching text openAt opening closing = .ok (some index) → IsInside text index) ∧
    (∀ shape line header, header? shape line = some header →
      ∃ openAt found, checkedSub (matchEnd line header.rest) 1 = .ok openAt ∧
        findMatching line openAt '(' ')' = .ok found ∧ ∀ close ∈ found, openAt + 1 ≤ close) ∧
    (∀ text openAt opening, groupStart? text = some (openAt, opening) →
      ∃ found, findMatching text openAt opening (groupOf opening).1 = .ok found ∧
        openAt + 1 ≤ found.getD (utf8Length text)) ∧
    (∀ entry index, findTopLevel? '=' entry = some index →
      index + 1 ≤ utf8Length entry ∧ IsBoundary entry (index + 1)) :=
  ⟨stripFrom_code source.toList, Sliced.extract_eq source, Sliced.repositoryName?_eq source,
    fun _ _ _ => isInside_of_findTopLevel?, fun _ _ _ _ _ => isInside_of_findMatching,
    fun _ _ _ => findMatching_of_header?, fun _ _ _ => findMatching_of_groupStart?,
    fun _ _ => isBoundary_after_equals⟩

/-- A source with characters of two, three and four bytes next to quotes, brackets, backslashes,
separators and the marks of comments. -/
def wideSource : String :=
  "class LagerÉRepository \x7b /*é/*日*/𝄞*/\n"
    ++ "Future<Map<ü, 日>> hole(int a,String é='ü\\'’)',\x7brequired 日 x, int n=é'𝄞,='\x7d); // é\n\x7d"

/-- What the source declares. -/
def wideMethod : Method where
  name := "hole"
  payload := "Map<ü, 日>"
  parameters := [⟨"int", "a", .positional, none⟩, ⟨"int", "n", .named, some "é'𝄞,='"⟩]
  shape := .plainFuture
  line := 2

theorem wideSource_within_bounds :
    Sliced.extract wideSource = .ok (extract wideSource) ∧
      (extract wideSource).methods = [wideMethod] ∧
      Sliced.repositoryName? wideSource = .ok (some "LagerÉRepository") ∧
      (findTopLevel? '=' "é='𝄞='".toList = some 2 ∧ IsInside "é='𝄞='".toList 2) := by
  obtain ⟨-, hextract, hrepository, hinside, -⟩ := extraction_within_bounds wideSource
  refine ⟨hextract, by decide +kernel, ?_, by decide +kernel, hinside '=' _ 2 (by decide +kernel)⟩
  rw [hrepository]
  exact congrArg Except.ok (by decide +kernel)

end UseCases.Declaration
