/-
Well-nested texts.

A text is well nested when every literal and every bracket that it opens is closed in it, the
brackets in the right order.  `nestedFrom` reads such a text with a stack of the closing brackets
that are still due, and says on the way what may stand outside all brackets.

The readers of a declaration only count brackets.  On well-nested text counting is enough:
the depth is the height of the stack, so a cut at depth zero passes over the whole text, and
the reader of one kind of bracket is where it was after it.
-/
import Mathlib.Tactic.Common
import UseCases.Dart.Nesting
import UseCases.Proofs.Dart.Comment

namespace UseCases.Dart

open Text

/-! ### Brackets -/

/-- The bracket that closes an opening one. -/
def closerOf (c : Char) : Char :=
  if c = '<' then '>' else if c = '(' then ')' else if c = '[' then ']' else '\x7d'

theorem cases_of_isOpening {c : Char} (h : isOpening c = true) :
    c = '<' ∨ c = '(' ∨ c = '[' ∨ c = '\x7b' := by
  simpa [isOpening, or_assoc] using h

theorem closerOf_cases (c : Char) :
    closerOf c = '>' ∨ closerOf c = ')' ∨ closerOf c = ']' ∨ closerOf c = '\x7d' := by
  unfold closerOf
  grind

theorem isClosing_closerOf (c : Char) : isClosing (closerOf c) = true := by
  rcases closerOf_cases c with h | h | h | h <;> rw [h] <;> decide

theorem isOpening_closerOf (c : Char) : isOpening (closerOf c) = false := by
  rcases closerOf_cases c with h | h | h | h <;> rw [h] <;> decide

theorem isQuote_of_isClosing {c : Char} (h : isClosing c = true) : isQuote c = false := by
  simp only [isClosing, Bool.or_eq_true, beq_iff_eq] at h
  rcases h with ((rfl | rfl) | rfl) | rfl <;> decide

theorem isQuote_of_isOpening {c : Char} (h : isOpening c = true) : isQuote c = false := by
  rcases cases_of_isOpening h with rfl | rfl | rfl | rfl <;> decide

/-- Different kinds of brackets are closed by different ones. -/
theorem closerOf_inj {a b : Char} (ha : isOpening a = true) (hb : isOpening b = true)
    (h : closerOf a = closerOf b) : a = b := by
  rcases cases_of_isOpening ha with rfl | rfl | rfl | rfl <;>
    rcases cases_of_isOpening hb with rfl | rfl | rfl | rfl <;>
    first
      | rfl
      | exact absurd h (by decide)

/-! ### Code characters -/

theorem isCode_iff {l : Literal} {c : Char} :
    l.isCode c = true ↔ l = .outside ∧ isQuote c = false := by
  cases l <;> simp [Literal.isCode]

theorem next_of_isCode {l : Literal} {c : Char} (h : l.isCode c = true) : l.next c = .outside := by
  obtain ⟨rfl, hquote⟩ := isCode_iff.mp h
  simp [Literal.next, hquote]

/-! ### Well-nested texts -/

/-- The closing brackets that are due after one more character of code, unless it is a closing
bracket that is not due. -/
def turn? (due : List Char) (c : Char) : Option (List Char) :=
  if isOpening c then some (closerOf c :: due)
  else if isClosing c then
    match due with
    | [] => none
    | d :: rest => if c = d then some rest else none
  else some due

theorem turn?_eq_some {due next : List Char} {c : Char} :
    turn? due c = some next ↔
      (isOpening c = true ∧ next = closerOf c :: due) ∨
      (isOpening c = false ∧ isClosing c = true ∧ due = c :: next) ∨
      (isOpening c = false ∧ isClosing c = false ∧ next = due) := by
  unfold turn?
  by_cases hopening : isOpening c = true
  · rw [if_pos hopening]
    simp only [hopening, true_and, Bool.true_eq_false, false_and, or_false, Option.some.injEq]
    exact eq_comm
  · rw [if_neg hopening]
    by_cases hclosing : isClosing c = true
    · rw [if_pos hclosing]
      cases due with
      | nil => simp [hopening, hclosing]
      | cons d rest =>
          rw [Bool.not_eq_true] at hopening
          show (if c = d then some rest else none) = some next ↔ _
          by_cases hd : c = d
          · rw [if_pos hd]
            simp [hopening, hclosing, hd.symm]
          · rw [if_neg hd]
            simp [hopening, hclosing, Ne.symm hd]
    · rw [if_neg hclosing]
      simp only [hopening, hclosing, Bool.false_eq_true, false_and, false_or, true_and,
        Option.some.injEq]
      exact eq_comm

/-- What is due below the brackets of a text does not matter to them. -/
theorem turn?_append {due next : List Char} {c : Char} (h : turn? due c = some next)
    (more : List Char) : turn? (due ++ more) c = some (next ++ more) := by
  rw [turn?_eq_some] at h ⊢
  rcases h with ⟨hopening, rfl⟩ | ⟨hopening, hclosing, rfl⟩ | ⟨hopening, hclosing, rfl⟩
  · exact Or.inl ⟨hopening, rfl⟩
  · exact Or.inr (Or.inl ⟨hopening, hclosing, rfl⟩)
  · exact Or.inr (Or.inr ⟨hopening, hclosing, rfl⟩)

/-- The text closes the literal it starts in and the brackets that are `due`, and all that it
opens itself.  Code outside all brackets is `bare`. -/
def nestedFrom (bare : Char → Bool) (due : List Char) (state : Literal) : List Char → Bool
  | [] => due.isEmpty && state == .outside
  | c :: cs =>
    if state.isCode c then
      (!due.isEmpty || bare c) &&
        match turn? due c with
        | some due => nestedFrom bare due .outside cs
        | none => false
    else nestedFrom bare due (state.next c) cs

/-- The text is well nested, and what stands outside its brackets and literals is `bare`. -/
def isNested (bare : Char → Bool) (text : List Char) : Bool :=
  nestedFrom bare [] .outside text

theorem nestedFrom_nil {bare : Char → Bool} {due : List Char} {l : Literal} :
    nestedFrom bare due l [] = true ↔ due = [] ∧ l = .outside := by
  simp [nestedFrom]

/-- A character of code turns the stack; it is bare if the stack is empty. -/
theorem nestedFrom_code {bare : Char → Bool} {due : List Char} {l : Literal} {c : Char}
    {cs : List Char} (hcode : l.isCode c = true) :
    nestedFrom bare due l (c :: cs) = true ↔
      (due = [] → bare c = true) ∧ ∃ next, turn? due c = some next ∧
        nestedFrom bare next .outside cs = true := by
  rw [nestedFrom, if_pos hcode, Bool.and_eq_true, Bool.or_eq_true, Bool.not_eq_true',
    List.isEmpty_eq_false_iff]
  refine and_congr imp_iff_not_or.symm ?_
  cases turn? due c <;> simp

theorem nestedFrom_text {bare : Char → Bool} {due : List Char} {l : Literal} {c : Char}
    {cs : List Char} (hcode : l.isCode c = false) :
    nestedFrom bare due l (c :: cs) = nestedFrom bare due (l.next c) cs := by
  rw [nestedFrom, if_neg (by simp [hcode])]

/-! ### Putting well-nested texts together -/

/-- A text closes what it opens, so what is due after it may be due before it too. -/
theorem nestedFrom_append {weak bare : Char → Bool} {due more : List Char} {l : Literal}
    {a b : List Char} (hbare : more = [] → ∀ c, weak c = true → bare c = true)
    (h : nestedFrom weak due l a = true) (hb : nestedFrom bare more .outside b = true) :
    nestedFrom bare (due ++ more) l (a ++ b) = true := by
  induction a generalizing due l with
  | nil =>
      obtain ⟨rfl, rfl⟩ := nestedFrom_nil.mp h
      exact hb
  | cons c cs ih =>
      rw [List.cons_append]
      by_cases hcode : l.isCode c = true
      · obtain ⟨hc, next, hnext, hcs⟩ := (nestedFrom_code hcode).mp h
        refine (nestedFrom_code hcode).mpr
          ⟨fun hnil => ?_, next ++ more, turn?_append hnext more, ih hcs⟩
        obtain ⟨hdue, hmore⟩ := List.append_eq_nil_iff.mp hnil
        exact hbare hmore c (hc hdue)
      · have htext : l.isCode c = false := by simpa using hcode
        rw [nestedFrom_text htext] at h ⊢
        exact ih h

theorem isNested_append {bare : Char → Bool} {a b : List Char} (ha : isNested bare a = true)
    (hb : isNested bare b = true) : isNested bare (a ++ b) = true :=
  nestedFrom_append (fun _ _ h => h) ha hb

theorem isNested_mono {weak bare : Char → Bool} (h : ∀ c, weak c = true → bare c = true)
    {text : List Char} (ht : isNested weak text = true) : isNested bare text = true := by
  have happend : nestedFrom bare ([] ++ []) .outside (text ++ []) = true :=
    nestedFrom_append (fun _ => h) ht rfl
  rwa [List.append_nil, List.append_nil] at happend

/-- A well-nested text in brackets. -/
theorem isNested_group (opening : Char) {weak bare : Char → Bool} {text : List Char}
    (hopening : isOpening opening = true) (hbare : bare opening = true)
    (h : isNested weak text = true) :
    isNested bare (opening :: (text ++ [closerOf opening])) = true := by
  have hquote : Literal.outside.isCode opening = true :=
    isCode_iff.mpr ⟨rfl, isQuote_of_isOpening hopening⟩
  have hcloser : Literal.outside.isCode (closerOf opening) = true :=
    isCode_iff.mpr ⟨rfl, isQuote_of_isClosing (isClosing_closerOf opening)⟩
  have hlast : nestedFrom bare [closerOf opening] .outside [closerOf opening] = true := by
    refine (nestedFrom_code hcloser).mpr ⟨fun hnil => by simp at hnil, [], ?_, rfl⟩
    exact turn?_eq_some.mpr
      (Or.inr (Or.inl ⟨isOpening_closerOf opening, isClosing_closerOf opening, rfl⟩))
  refine (nestedFrom_code hquote).mpr
    ⟨fun _ => hbare, [closerOf opening], turn?_eq_some.mpr (Or.inl ⟨hopening, rfl⟩), ?_⟩
  have happend : nestedFrom bare ([] ++ [closerOf opening]) .outside (text ++ [closerOf opening])
      = true := nestedFrom_append (fun hnil => by cases hnil) h hlast
  exact happend

/-- A character that is neither a bracket nor a quote. -/
def isFlat (c : Char) : Bool :=
  !isOpening c && !isClosing c && !isQuote c

/-- The characters that are not flat. -/
theorem isFlat_of_forall {p : Char → Bool} {c : Char}
    (hp : ['<', '(', '[', '\x7b', '>', ')', ']', '\x7d', '\'', '"'].all fun d => !p d)
    (h : p c = true) : isFlat c = true := by
  by_contra hflat
  have hc : c ∈ ['<', '(', '[', '\x7b', '>', ')', ']', '\x7d', '\'', '"'] := by
    simp only [isFlat, isOpening, isClosing, isQuote, Bool.and_eq_true, Bool.not_eq_true',
      Bool.or_eq_false_iff, beq_eq_false_iff_ne] at hflat
    simp only [List.mem_cons, List.not_mem_nil, or_false]
    tauto
  have hnone := List.all_eq_true.mp hp c hc
  rw [h] at hnone
  cases hnone

theorem isNested_flat {bare : Char → Bool} {text : List Char}
    (h : ∀ c ∈ text, isFlat c = true ∧ bare c = true) : isNested bare text = true := by
  induction text with
  | nil => rfl
  | cons c cs ih =>
      obtain ⟨hflat, hbare⟩ := h c List.mem_cons_self
      simp only [isFlat, Bool.and_eq_true, Bool.not_eq_true'] at hflat
      obtain ⟨⟨hopening, hclosing⟩, hquote⟩ := hflat
      refine (nestedFrom_code (isCode_iff.mpr ⟨rfl, hquote⟩)).mpr ⟨fun _ => hbare, [], ?_, ?_⟩
      · exact turn?_eq_some.mpr (Or.inr (Or.inr ⟨hopening, hclosing, rfl⟩))
      · exact ih fun d hd => h d (List.mem_cons_of_mem c hd)

/-- A well-nested text leaves its reader outside literals. -/
theorem after_of_nestedFrom {bare : Char → Bool} {due : List Char} {l : Literal}
    {text : List Char} (h : nestedFrom bare due l text = true) : l.after text = .outside := by
  induction text generalizing due l with
  | nil => exact (nestedFrom_nil.mp h).2
  | cons c cs ih =>
      rw [Literal.after, List.foldl_cons]
      by_cases hcode : l.isCode c = true
      · obtain ⟨-, next, -, hcs⟩ := (nestedFrom_code hcode).mp h
        rw [next_of_isCode hcode]
        exact ih hcs
      · rw [nestedFrom_text (by simpa using hcode)] at h
        exact ih h

/-! ### Cuts -/

/-- The cut of a text with more text before it. -/
def Cut.prepend (text : List Char) (cut : Cut) : Cut :=
  { cut with before := text ++ cut.before }

theorem Place.next_code {l : Literal} {n : Nat} {c : Char} (h : l.isCode c = true) :
    (Place.mk l n).next c = ⟨.outside, deepen n c⟩ := by
  simp [Place.next, h, next_of_isCode h]

theorem Place.next_text {l : Literal} {n : Nat} {c : Char} (h : l.isCode c = false) :
    (Place.mk l n).next c = ⟨l.next c, n⟩ := by
  simp [Place.next, h]

/-- Counting brackets gives the height of the stack. -/
theorem deepen_of_turn {due next : List Char} {c : Char} (h : turn? due c = some next) :
    Place.deepen due.length c = next.length := by
  unfold Place.deepen
  rcases turn?_eq_some.mp h with ⟨hopening, rfl⟩ | ⟨hopening, hclosing, rfl⟩ |
    ⟨hopening, hclosing, rfl⟩
  · simp [hopening]
  · simp [hopening, hclosing]
  · simp [hopening, hclosing]

theorem cutFrom?_skip {isCut : Char → Bool} {p : Place} {c : Char} {cs : List Char}
    (h : (p.isTop c && isCut c) = false) :
    cutFrom? isCut p (c :: cs) = (cutFrom? isCut (p.next c) cs).map (Cut.prepend [c]) := by
  rw [cutFrom?, if_neg (by simp [h])]
  rfl

theorem cutFrom?_hit {isCut : Char → Bool} {p : Place} {c : Char} {cs : List Char}
    (htop : p.isTop c = true) (hcut : isCut c = true) :
    cutFrom? isCut p (c :: cs) = some ⟨[], c, cs⟩ := by
  rw [cutFrom?, if_pos (by simp [htop, hcut])]

/-- **A cut passes over well-nested text** whose bare characters are no cuts. -/
theorem cutFrom?_nested {bare isCut : Char → Bool}
    (hcut : ∀ c, bare c = true → isCut c = false) {due : List Char} {l : Literal}
    {text : List Char} (h : nestedFrom bare due l text = true) (rest : List Char) :
    cutFrom? isCut ⟨l, due.length⟩ (text ++ rest)
      = (cutFrom? isCut .top rest).map (Cut.prepend text) := by
  induction text generalizing due l with
  | nil =>
      obtain ⟨rfl, rfl⟩ := nestedFrom_nil.mp h
      cases hrest : cutFrom? isCut .top rest with
      | none => exact hrest
      | some cut => exact hrest
  | cons c cs ih =>
      by_cases hcode : l.isCode c = true
      · obtain ⟨hc, next, hnext, hcs⟩ := (nestedFrom_code hcode).mp h
        have hskip : ((Place.mk l due.length).isTop c && isCut c) = false := by
          cases due with
          | nil => simp [hcut c (hc rfl)]
          | cons d rest => simp [Place.isTop]
        rw [List.cons_append, cutFrom?_skip hskip, Place.next_code hcode, deepen_of_turn hnext,
          ih hcs, Option.map_map]
        rfl
      · have htext : l.isCode c = false := by simpa using hcode
        have hskip : ((Place.mk l due.length).isTop c && isCut c) = false := by
          simp [Place.isTop, htext]
        rw [nestedFrom_text htext] at h
        rw [List.cons_append, cutFrom?_skip hskip, Place.next_text htext, ih h, Option.map_map]
        rfl

/-- Nothing is cut in well-nested text whose bare characters are no cuts. -/
theorem cut?_nested {bare isCut : Char → Bool} (hcut : ∀ c, bare c = true → isCut c = false)
    {text : List Char} (h : isNested bare text = true) : cut? isCut text = none := by
  have hnone := cutFrom?_nested hcut h []
  rw [List.append_nil] at hnone
  exact hnone

/-- The first cut stands after the well-nested text. -/
theorem cut?_nested_mark {bare isCut : Char → Bool}
    (hcut : ∀ c, bare c = true → isCut c = false) {text : List Char}
    (h : isNested bare text = true) (mark : Char) (hquote : isQuote mark = false)
    (hmark : isCut mark = true) (rest : List Char) :
    cut? isCut (text ++ mark :: rest) = some ⟨text, mark, rest⟩ := by
  have hfirst := cutFrom?_nested hcut h (mark :: rest)
  rw [cutFrom?_hit (by simp [Place.isTop, Place.top, Literal.isCode, hquote]) hmark] at hfirst
  refine hfirst.trans ?_
  simp [Cut.prepend]

/-! ### Pieces -/

/-- The pieces are what repeated cuts leave. -/
theorem piecesFrom_eq (separator : Char) (p : Place) (text : List Char) :
    piecesFrom separator p text =
      match cutFrom? (· == separator) p text with
      | none => [text]
      | some cut => cut.before :: pieces separator cut.after := by
  induction text generalizing p with
  | nil => rfl
  | cons c cs ih =>
      by_cases hcut : (p.isTop c && c == separator) = true
      · rw [piecesFrom, cutFrom?, if_pos hcut, if_pos hcut]
        rfl
      · rw [piecesFrom, cutFrom?, if_neg hcut, if_neg hcut, ih]
        cases cutFrom? (· == separator) (p.next c) cs <;> rfl

/-- The entries of a text that is cut nowhere. -/
theorem splitTopLevel_uncut {separator : Char} {text : List Char}
    (h : cut? (· == separator) text = none) :
    splitTopLevel separator text = [trim text].filter fun entry => !entry.isEmpty := by
  unfold splitTopLevel pieces
  rw [piecesFrom_eq, show cutFrom? (· == separator) .top text = none from h]
  rfl

theorem splitTopLevel_nested {separator : Char} {text : List Char}
    (h : isNested (fun c => c != separator) text = true) :
    splitTopLevel separator text = [trim text].filter fun entry => !entry.isEmpty :=
  splitTopLevel_uncut (cut?_nested (fun c hc => by simpa using hc) h)

/-- The first entry of a text ends at the separator after a well-nested text. -/
theorem splitTopLevel_nested_cons {separator : Char} (hquote : isQuote separator = false)
    {text : List Char} (h : isNested (fun c => c != separator) text = true) (rest : List Char) :
    splitTopLevel separator (text ++ separator :: rest)
      = ([trim text].filter fun entry => !entry.isEmpty) ++ splitTopLevel separator rest := by
  have hcut : cut? (· == separator) (text ++ separator :: rest) = some ⟨text, separator, rest⟩ :=
    cut?_nested_mark (fun c hc => by simpa using hc) h separator hquote (by simp) rest
  unfold splitTopLevel
  rw [pieces, piecesFrom_eq,
    show cutFrom? (· == separator) .top (text ++ separator :: rest) = some ⟨text, separator, rest⟩
      from hcut]
  rw [List.map_cons, ← List.singleton_append, List.filter_append]

/-- A blank before the first entry is trimmed off. -/
theorem splitTopLevel_cons_blank {separator c : Char} (hc : isBlank c = true)
    (hne : (c == separator) = false) (text : List Char) :
    splitTopLevel separator (c :: text) = splitTopLevel separator text := by
  have hflat : isFlat c = true := isFlat_of_forall (by decide) hc
  simp only [isFlat, Bool.and_eq_true, Bool.not_eq_true'] at hflat
  obtain ⟨⟨hopening, hclosing⟩, hquote⟩ := hflat
  have hnext : Place.top.next c = .top := by
    simp [Place.next, Place.top, Literal.next, Literal.isCode, Place.deepen, *]
  unfold splitTopLevel pieces
  rw [piecesFrom, if_neg (by simp [hne]), hnext]
  split
  · rename_i hnil
    rw [hnil]
    simp [trim_cons_blank hc, trim_nil]
  · rename_i piece more hpieces
    rw [hpieces, List.map_cons, List.map_cons, trim_cons_blank hc]

/-- An entry of a list: there is something in it, and it is cut nowhere. -/
structure IsEntry (separator : Char) (text : List Char) : Prop where
  visible : trim text ≠ []
  nested : isNested (fun c => c != separator) text = true

/-- **The entries of texts that separators follow.** -/
theorem splitTopLevel_flatMap {texts : List String} (h : ∀ t ∈ texts, IsEntry ',' t.toList)
    (rest : List Char) :
    splitTopLevel ',' ((texts.flatMap fun t => t.toList ++ ", ".toList) ++ rest)
      = (texts.map fun t => trim t.toList) ++ splitTopLevel ',' rest := by
  induction texts with
  | nil => rfl
  | cons t ts ih =>
      have ht := h t List.mem_cons_self
      have hcons : ((t :: ts).flatMap fun t => t.toList ++ ", ".toList) ++ rest
          = t.toList ++ ',' :: ' ' :: ((ts.flatMap fun t => t.toList ++ ", ".toList) ++ rest) := by
        simp
      rw [hcons, splitTopLevel_nested_cons (by decide) ht.nested,
        splitTopLevel_cons_blank (by decide) (by decide),
        ih fun s hs => h s (List.mem_cons_of_mem t hs)]
      simp [ht.visible]

/-- The entries of joined texts are the texts. -/
theorem splitTopLevel_join {texts : List String} (h : ∀ t ∈ texts, IsEntry ',' t.toList) :
    splitTopLevel ',' (join ", " texts).toList = texts.map fun t => trim t.toList := by
  rcases List.eq_nil_or_concat texts with rfl | ⟨front, last, rfl⟩
  · rfl
  · have hlast := h last (by simp)
    rw [List.concat_eq_append, toList_join_concat,
      splitTopLevel_flatMap fun t ht => h t (by simp [ht]),
      splitTopLevel_nested hlast.nested]
    simp [hlast.visible]

theorem isNested_flatMap {bare : Char → Bool} (hcomma : isNested bare ", ".toList = true)
    {texts : List String} (h : ∀ t ∈ texts, isNested bare t.toList = true) :
    isNested bare (texts.flatMap fun t => t.toList ++ ", ".toList) = true := by
  induction texts with
  | nil => rfl
  | cons t ts ih =>
      rw [List.flatMap_cons]
      exact isNested_append (isNested_append (h t List.mem_cons_self) hcomma)
        (ih fun s hs => h s (List.mem_cons_of_mem t hs))

theorem isNested_join {bare : Char → Bool} (hcomma : isNested bare ", ".toList = true)
    {texts : List String} (h : ∀ t ∈ texts, isNested bare t.toList = true) :
    isNested bare (join ", " texts).toList = true := by
  rcases List.eq_nil_or_concat texts with rfl | ⟨front, last, rfl⟩
  · rfl
  · rw [List.concat_eq_append, toList_join_concat]
    exact isNested_append (isNested_flatMap hcomma fun t ht => h t (by simp [ht]))
      (h last (by simp))

/-! ### Matching brackets -/

/-- Enclosed text with more text before it. -/
def Enclosed.prepend (text : List Char) (e : Enclosed) : Enclosed :=
  { e with inside := text ++ e.inside }

/-- The open brackets of the one kind among those that are due. -/
theorem count_of_turn {due next : List Char} {c opening : Char} (h : turn? due c = some next)
    (hopening : isOpening opening = true) :
    (if c = opening then due.count (closerOf opening) + 1
      else if c = closerOf opening then due.count (closerOf opening) - 1
      else due.count (closerOf opening)) = next.count (closerOf opening) := by
  rcases turn?_eq_some.mp h with ⟨hc, rfl⟩ | ⟨hc, hclosing, rfl⟩ | ⟨hc, hclosing, rfl⟩
  · by_cases hsame : c = opening
    · simp [hsame]
    · have hcloser : c ≠ closerOf opening := by
        rintro rfl
        rw [isOpening_closerOf] at hc
        cases hc
      have hother : closerOf c ≠ closerOf opening := fun he => hsame (closerOf_inj hc hopening he)
      simp [hsame, hcloser, hother]
  · have hsame : c ≠ opening := by
      rintro rfl
      rw [hopening] at hc
      cases hc
    by_cases hcloser : c = closerOf opening
    · simp [hcloser, hcloser ▸ hsame]
    · simp [hsame, hcloser]
  · have hsame : c ≠ opening := by
      rintro rfl
      rw [hopening] at hc
      cases hc
    have hcloser : c ≠ closerOf opening := by
      rintro rfl
      rw [isClosing_closerOf] at hclosing
      cases hclosing
    simp [hsame, hcloser]

/-- A closing bracket that turns the stack was due. -/
theorem closer_due {due next : List Char} {c opening : Char} (h : turn? due c = some next) :
    ¬(c = closerOf opening ∧ due.count (closerOf opening) = 0) := by
  rintro ⟨rfl, hcount⟩
  rcases turn?_eq_some.mp h with ⟨hc, -⟩ | ⟨-, -, rfl⟩ | ⟨-, hclosing, -⟩
  · rw [isOpening_closerOf] at hc
    cases hc
  · simp at hcount
  · rw [isClosing_closerOf] at hclosing
    cases hclosing

/-- **A well-nested text is enclosed whole**: its reader is as deep after it as before. -/
theorem enclosedFrom?_nested {bare : Char → Bool} {opening : Char}
    (hopening : isOpening opening = true) {due : List Char} {l : Literal} {text : List Char}
    (h : nestedFrom bare due l text = true) (rest : List Char) :
    enclosedFrom? opening (closerOf opening) l (due.count (closerOf opening)) (text ++ rest)
      = (enclosedFrom? opening (closerOf opening) .outside 0 rest).map (Enclosed.prepend text) := by
  induction text generalizing due l with
  | nil =>
      obtain ⟨rfl, rfl⟩ := nestedFrom_nil.mp h
      cases hrest : enclosedFrom? opening (closerOf opening) .outside 0 rest with
      | none => exact hrest
      | some e => exact hrest
  | cons c cs ih =>
      rw [List.cons_append, enclosedFrom?]
      by_cases hcode : l.isCode c = true
      · obtain ⟨-, next, hnext, hcs⟩ := (nestedFrom_code hcode).mp h
        have hstep := ih hcs
        rw [← count_of_turn hnext hopening] at hstep
        simp only [hcode, Bool.true_and, Bool.and_eq_true, beq_iff_eq]
        rw [if_neg (closer_due hnext), next_of_isCode hcode, hstep, Option.map_map]
        rfl
      · have htext : l.isCode c = false := by simpa using hcode
        rw [nestedFrom_text htext] at h
        simp only [htext, Bool.false_and, Bool.false_eq_true, if_false]
        rw [ih h, Option.map_map]
        rfl

/-- The bracket that closes a well-nested text. -/
theorem enclosed?_nested (opening : Char) {bare : Char → Bool}
    (hopening : isOpening opening = true) {text : List Char} (h : isNested bare text = true)
    (rest : List Char) :
    enclosed? opening (closerOf opening) (text ++ closerOf opening :: rest)
      = some ⟨text, rest⟩ := by
  have hclosed := enclosedFrom?_nested hopening h (closerOf opening :: rest)
  have hcode : Literal.outside.isCode (closerOf opening) = true :=
    isCode_iff.mpr ⟨rfl, isQuote_of_isClosing (isClosing_closerOf opening)⟩
  rw [enclosedFrom?, if_pos (by simp [hcode])] at hclosed
  refine hclosed.trans ?_
  simp [Enclosed.prepend]

/-! ### Text inside a line -/

/-- A text that can stand in brackets on a line: its own brackets are closed, and it holds no
newline and opens no comment. -/
structure IsInline (text : List Char) : Prop where
  nested : isNested (fun _ => true) text = true
  oneLine : '\n' ∉ text
  settled : Settled text

theorem IsInline.append {a b : List Char} (ha : IsInline a) (hb : IsInline b)
    (hjoin : ∀ c, b.head? = some c → c ≠ '/' ∧ c ≠ '*') : IsInline (a ++ b) where
  nested := isNested_append ha.nested hb.nested
  oneLine := by
    rw [List.mem_append]
    rintro (h | h)
    · exact ha.oneLine h
    · exact hb.oneLine h
  settled := ha.settled.append hb.settled hjoin

/-- A character that neither nests, nor quotes, nor starts a comment, nor ends the line. -/
def isInlineChar (c : Char) : Bool :=
  isFlat c && c != '/' && c != '\n'

theorem isPlain_of_isInlineChar {c : Char} (h : isInlineChar c = true) : isPlain c = true := by
  simp only [isInlineChar, isFlat, Bool.and_eq_true, Bool.not_eq_true', bne_iff_ne] at h
  exact isPlain_iff.mpr ⟨h.1.2, h.1.1.2⟩

theorem isInline_flat {text : List Char} (h : ∀ c ∈ text, isInlineChar c = true) :
    IsInline text where
  nested := by
    refine isNested_flat fun c hc => ⟨?_, rfl⟩
    have hinline := h c hc
    simp only [isInlineChar, Bool.and_eq_true] at hinline
    exact hinline.1.1
  oneLine hmem := absurd (h '\n' hmem) (by decide)
  settled := settled_plain fun c hc => isPlain_of_isInlineChar (h c hc)

theorem IsInline.flat_append {a b : List Char} (ha : ∀ c ∈ a, isInlineChar c = true)
    (hb : IsInline b) : IsInline (a ++ b) where
  nested := isNested_append (isInline_flat ha).nested hb.nested
  oneLine := by
    rw [List.mem_append]
    rintro (h | h)
    · exact (isInline_flat ha).oneLine h
    · exact hb.oneLine h
  settled := Settled.plain_append (fun c hc => isPlain_of_isInlineChar (ha c hc)) hb.settled

theorem IsInline.group {opening : Char} {text : List Char} (hopening : isOpening opening = true)
    (h : IsInline text) : IsInline (opening :: (text ++ [closerOf opening])) where
  nested := isNested_group opening hopening rfl h.nested
  oneLine := by
    rw [List.mem_cons, List.mem_append, List.mem_singleton]
    rintro (hnewline | htext | hnewline)
    · rw [← hnewline] at hopening
      exact absurd hopening (by decide)
    · exact h.oneLine htext
    · have hclosing := isClosing_closerOf opening
      rw [← hnewline] at hclosing
      exact absurd hclosing (by decide)
  settled := by
    have hplain : ∀ c, isOpening c = true ∨ isClosing c = true → isPlain c = true := by
      intro c hc
      refine isPlain_iff.mpr ⟨?_, hc.elim isQuote_of_isOpening isQuote_of_isClosing⟩
      rintro rfl
      exact absurd hc (by decide)
    have hcloser : isPlain (closerOf opening) = true :=
      hplain _ (Or.inr (isClosing_closerOf opening))
    have hbody : Settled (text ++ [closerOf opening]) := by
      refine h.settled.append (settled_plain (by simpa using hcloser)) ?_
      rintro c ⟨rfl⟩
      refine ⟨(isPlain_iff.mp hcloser).1, ?_⟩
      intro hstar
      have hclosing := isClosing_closerOf opening
      rw [hstar] at hclosing
      exact absurd hclosing (by decide)
    exact Settled.plain_append (a := [opening]) (by simpa using hplain _ (Or.inl hopening)) hbody

theorem isInline_join {texts : List String} (h : ∀ t ∈ texts, IsInline t.toList) :
    IsInline (join ", " texts).toList := by
  induction texts with
  | nil => exact isInline_flat (by simp [join])
  | cons first rest ih =>
      cases rest with
      | nil => exact h first List.mem_cons_self
      | cons second more =>
          rw [toList_join_cons, List.append_assoc]
          have hrest := ih fun t ht => h t (List.mem_cons_of_mem first ht)
          refine (h first List.mem_cons_self).append
            (IsInline.flat_append (a := ", ".toList) (List.all_eq_true.mp (by decide)) hrest) ?_
          rintro c ⟨rfl⟩
          decide

end UseCases.Dart
