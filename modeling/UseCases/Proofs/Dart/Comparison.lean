/-
Less-than signs that are no brackets.

A reader of a declaration counts every `<` as a bracket, so a less-than sign takes it one level
down for good: nothing closes the sign.  `balancedFrom` describes such text, well nested but for
its less-than signs, and what it leaves behind is the count of them.

Two things follow.  A cut at depth zero passes over text with its brackets in order, and below
depth zero it passes over everything; so the first entry of a list that holds such a sign takes
all the entries after it.  A bracket of another kind does not see the sign at all.
-/
import UseCases.Proofs.Dart.Nesting

namespace UseCases.Dart

open Text

variable {bare isCut : Char → Bool} {due : List Char} {l : Literal} {c : Char}
  {text cs : List Char}

/-! ### Balanced texts -/

/-- The text closes the literal it starts in and the brackets that are `due`, and all parentheses,
square brackets and braces that it opens itself.  A less-than sign opens nothing, and there is no
greater-than sign.  Code outside all brackets is `bare`. -/
def balancedFrom (bare : Char → Bool) (due : List Char) (state : Literal) : List Char → Bool
  | [] => due.isEmpty && state == .outside
  | c :: cs =>
    if state.isCode c && c != '<' then
      c != '>' && (!due.isEmpty || bare c) &&
        match turn? due c with
        | some due => balancedFrom bare due .outside cs
        | none => false
    else balancedFrom bare due (state.next c) cs

/-- The text is balanced, and what stands outside its brackets and literals is `bare`. -/
def isBalanced (bare : Char → Bool) (text : List Char) : Bool :=
  balancedFrom bare [] .outside text

/-- How many less-than signs of code a text holds. -/
def lessCount (state : Literal) (text : List Char) : Nat :=
  (markCode state text).count ('<', true)

theorem balancedFrom_nil :
    balancedFrom bare due l [] = true ↔ due = [] ∧ l = .outside := by
  simp [balancedFrom]

theorem balancedFrom_code (hcode : l.isCode c = true) (hless : c ≠ '<') :
    balancedFrom bare due l (c :: cs) = true ↔
      c ≠ '>' ∧ (due = [] → bare c = true) ∧ ∃ next, turn? due c = some next ∧
        balancedFrom bare next .outside cs = true := by
  rw [balancedFrom, if_pos (by simp [hcode, hless]), Bool.and_eq_true, Bool.and_eq_true,
    Bool.or_eq_true, Bool.not_eq_true', List.isEmpty_eq_false_iff, bne_iff_ne, and_assoc]
  refine and_congr Iff.rfl (and_congr imp_iff_not_or.symm ?_)
  cases turn? due c <;> simp

theorem balancedFrom_less (hcode : l.isCode '<' = true) :
    balancedFrom bare due l ('<' :: cs) = balancedFrom bare due .outside cs := by
  rw [balancedFrom, if_neg (by simp), next_of_isCode hcode]

theorem balancedFrom_text (hcode : l.isCode c = false) :
    balancedFrom bare due l (c :: cs) = balancedFrom bare due (l.next c) cs := by
  rw [balancedFrom, if_neg (by simp [hcode])]

theorem lessCount_code (hcode : l.isCode c = true) (hless : c ≠ '<') :
    lessCount l (c :: cs) = lessCount .outside cs := by
  rw [lessCount, markCode, next_of_isCode hcode, List.count_cons_of_ne (by simp [hless])]
  rfl

theorem lessCount_less (hcode : l.isCode '<' = true) :
    lessCount l ('<' :: cs) = lessCount .outside cs + 1 := by
  rw [lessCount, markCode, hcode, next_of_isCode hcode, List.count_cons_self]
  rfl

theorem lessCount_text (hcode : l.isCode c = false) :
    lessCount l (c :: cs) = lessCount (l.next c) cs := by
  rw [lessCount, markCode, hcode, List.count_cons_of_ne (by simp)]
  rfl

/-- Induction along a balanced text: a less-than sign changes nothing, another character of code
turns the stack, and the rest belongs to a literal. -/
theorem balanced_induction (h : balancedFrom bare due l text = true)
    {motive : List Char → Literal → List Char → Prop} (nil : motive [] .outside [])
    (less : ∀ due l cs, l.isCode '<' = true → motive due .outside cs → motive due l ('<' :: cs))
    (code : ∀ due l c cs next, l.isCode c = true → c ≠ '<' → c ≠ '>' → (due = [] → bare c = true) →
      turn? due c = some next → motive next .outside cs → motive due l (c :: cs))
    (inside : ∀ due l c cs, l.isCode c = false → motive due (l.next c) cs → motive due l (c :: cs)) :
    motive due l text := by
  induction text generalizing due l with
  | nil =>
      obtain ⟨rfl, rfl⟩ := balancedFrom_nil.mp h
      exact nil
  | cons c cs ih =>
      by_cases hcode : l.isCode c = true
      · by_cases hless : c = '<'
        · subst hless
          rw [balancedFrom_less hcode] at h
          exact less due l cs hcode (ih h)
        · obtain ⟨hgreater, hbare, next, hnext, hcs⟩ := (balancedFrom_code hcode hless).mp h
          exact code due l c cs next hcode hless hgreater hbare hnext (ih hcs)
      · have hinside : l.isCode c = false := by simpa using hcode
        rw [balancedFrom_text hinside] at h
        exact inside due l c cs hinside (ih h)

/-! ### Balanced and well nested -/

/-- Without less-than signs a balanced text is well nested. -/
theorem nestedFrom_of_balanced (h : balancedFrom bare due l text = true)
    (hnone : lessCount l text = 0) : nestedFrom bare due l text = true := by
  revert hnone
  refine balanced_induction h
    (motive := fun due l text => lessCount l text = 0 → nestedFrom bare due l text = true)
    (fun _ => rfl) (fun due l cs hcode ih hnone => ?less)
    (fun due l c cs next hcode hless hgreater hbare hnext ih hnone => ?code)
    (fun due l c cs hinside ih hnone => ?inside)
  case less =>
    rw [lessCount_less hcode] at hnone
    cases hnone
  case code =>
    rw [lessCount_code hcode hless] at hnone
    exact (nestedFrom_code hcode).mpr ⟨hbare, next, hnext, ih hnone⟩
  case inside =>
    rw [lessCount_text hinside] at hnone
    rw [nestedFrom_text hinside]
    exact ih hnone

/-- A text without angle brackets that is well nested is balanced. -/
theorem isBalanced_flat (h : ∀ c ∈ text, isFlat c = true ∧ bare c = true) :
    isBalanced bare text = true ∧ lessCount .outside text = 0 := by
  induction text with
  | nil => exact ⟨rfl, rfl⟩
  | cons c cs ih =>
      obtain ⟨hflat, hbare⟩ := h c List.mem_cons_self
      obtain ⟨hrest, hnone⟩ := ih fun d hd => h d (List.mem_cons_of_mem c hd)
      have hless : c ≠ '<' := by
        rintro rfl
        exact absurd hflat (by decide)
      have hgreater : c ≠ '>' := by
        rintro rfl
        exact absurd hflat (by decide)
      simp only [isFlat, Bool.and_eq_true, Bool.not_eq_true'] at hflat
      obtain ⟨⟨hopening, hclosing⟩, hquote⟩ := hflat
      have hcode : Literal.outside.isCode c = true := isCode_iff.mpr ⟨rfl, hquote⟩
      refine ⟨(balancedFrom_code hcode hless).mpr ⟨hgreater, fun _ => hbare, [], ?_, hrest⟩, ?_⟩
      · exact turn?_eq_some.mpr (Or.inr (Or.inr ⟨hopening, hclosing, rfl⟩))
      · rw [lessCount_code hcode hless, hnone]

/-! ### Putting balanced texts together -/

theorem balancedFrom_append {weak : Char → Bool} (more : List Char) {b : List Char}
    (hbare : ∀ c, weak c = true → bare c = true) (h : balancedFrom weak due l text = true)
    (hb : balancedFrom bare more .outside b = true) :
    balancedFrom bare (due ++ more) l (text ++ b) = true ∧
      lessCount l (text ++ b) = lessCount l text + lessCount .outside b := by
  refine balanced_induction h
    (motive := fun due l text => balancedFrom bare (due ++ more) l (text ++ b) = true ∧
      lessCount l (text ++ b) = lessCount l text + lessCount .outside b)
    ⟨hb, ?nil⟩ (fun due l cs hcode ih => ?less)
    (fun due l c cs next hcode hless hgreater hc hnext ih => ?code)
    (fun due l c cs hinside ih => ?inside)
  case nil => exact (Nat.zero_add _).symm
  case less =>
    rw [List.cons_append, balancedFrom_less hcode, lessCount_less hcode, lessCount_less hcode]
    exact ⟨ih.1, by omega⟩
  case code =>
    rw [List.cons_append, lessCount_code hcode hless, lessCount_code hcode hless]
    refine ⟨(balancedFrom_code hcode hless).mpr ⟨hgreater, fun hnil => ?_, next ++ more,
      turn?_append hnext more, ih.1⟩, ih.2⟩
    exact hbare c (hc (List.append_eq_nil_iff.mp hnil).1)
  case inside =>
    rw [List.cons_append, balancedFrom_text hinside, lessCount_text hinside,
      lessCount_text hinside]
    exact ih

theorem isBalanced_append {weak : Char → Bool} {b : List Char}
    (hbare : ∀ c, weak c = true → bare c = true) (h : isBalanced weak text = true)
    (hb : isBalanced bare b = true) :
    isBalanced bare (text ++ b) = true ∧
      lessCount .outside (text ++ b) = lessCount .outside text + lessCount .outside b :=
  balancedFrom_append [] hbare h hb

theorem isBalanced_mono {weak : Char → Bool} (hbare : ∀ c, weak c = true → bare c = true)
    (h : isBalanced weak text = true) : isBalanced bare text = true := by
  have happend := (isBalanced_append hbare h (b := []) rfl).1
  rwa [List.append_nil] at happend

/-! ### Cuts -/

/-- Away from angle brackets, counting brackets gives the height of the stack and the levels that
less-than signs left behind. -/
theorem deepen_of_turn_add {next : List Char} (h : turn? due c = some next) (k : Nat) :
    Place.deepen (due.length + k) c = next.length + k := by
  unfold Place.deepen
  rcases turn?_eq_some.mp h with ⟨hopening, rfl⟩ | ⟨hopening, hclosing, rfl⟩ |
    ⟨hopening, hclosing, rfl⟩
  · rw [if_pos hopening, List.length_cons]
    omega
  · rw [if_neg (by simp [hopening]), if_pos hclosing, List.length_cons]
    omega
  · rw [if_neg (by simp [hopening]), if_neg (by simp [hclosing])]

/-- **A cut passes over balanced text**, and each less-than sign takes it one level down.  At
depth zero the bare characters must be no cuts; below it there are none. -/
theorem cutFrom?_balanced (hangle : isCut '<' = false) (k : Nat)
    (hcut : k = 0 → ∀ c, bare c = true → isCut c = false)
    (h : balancedFrom bare due l text = true) (rest : List Char) :
    cutFrom? isCut ⟨l, due.length + k⟩ (text ++ rest)
      = (cutFrom? isCut ⟨.outside, k + lessCount l text⟩ rest).map (Cut.prepend text) := by
  revert k
  refine balanced_induction h
    (motive := fun due l text => ∀ k, (k = 0 → ∀ c, bare c = true → isCut c = false) →
      cutFrom? isCut ⟨l, due.length + k⟩ (text ++ rest)
        = (cutFrom? isCut ⟨.outside, k + lessCount l text⟩ rest).map (Cut.prepend text))
    (fun k hcut => ?nil) (fun due l cs hcode ih k hcut => ?less)
    (fun due l c cs next hcode hless hgreater hbare hnext ih k hcut => ?code)
    (fun due l c cs hinside ih k hcut => ?inside)
  case nil =>
    rw [List.nil_append, List.length_nil, Nat.zero_add,
      show k + lessCount .outside [] = k from rfl]
    cases cutFrom? isCut ⟨.outside, k⟩ rest <;> rfl
  case less =>
    have hdeeper : Place.deepen (due.length + k) '<' = due.length + (k + 1) := rfl
    rw [List.cons_append, cutFrom?_skip (by simp [hangle]), Place.next_code hcode, hdeeper,
      ih (k + 1) (by omega), lessCount_less hcode, Option.map_map, Nat.add_right_comm k 1,
      Nat.add_assoc k]
    rfl
  case code =>
    have hskip : ((Place.mk l (due.length + k)).isTop c && isCut c) = false := by
      cases due with
      | cons d rest => simp [Place.isTop]
      | nil =>
          cases k with
          | zero => simp [hcut rfl c (hbare rfl)]
          | succ k => simp [Place.isTop]
    rw [List.cons_append, cutFrom?_skip hskip, Place.next_code hcode,
      deepen_of_turn_add hnext k, ih k hcut, lessCount_code hcode hless, Option.map_map]
    rfl
  case inside =>
    have hskip : ((Place.mk l (due.length + k)).isTop c && isCut c) = false := by
      simp [Place.isTop, hinside]
    rw [List.cons_append, cutFrom?_skip hskip, Place.next_text hinside, ih k hcut,
      lessCount_text hinside, Option.map_map]
    rfl

/-- Nothing is cut after a less-than sign, and before it only what is bare. -/
theorem cut?_sunk (hangle : isCut '<' = false) (hcut : ∀ c, bare c = true → isCut c = false)
    (h : isBalanced bare text = true) {rest : List Char}
    (hrest : rest = [] ∨ 0 < lessCount .outside text)
    (hb : isBalanced (fun _ => true) rest = true) : cut? isCut (text ++ rest) = none := by
  have hfirst : cut? isCut (text ++ rest)
      = (cutFrom? isCut ⟨.outside, 0 + lessCount .outside text⟩ rest).map (Cut.prepend text) :=
    cutFrom?_balanced hangle 0 (fun _ => hcut) h rest
  rw [hfirst, Nat.zero_add]
  rcases hrest with rfl | hpositive
  · rfl
  · have hsecond := cutFrom?_balanced hangle (lessCount .outside text)
      (fun hzero => absurd hzero hpositive.ne') hb []
    rw [List.append_nil, List.length_nil, Nat.zero_add] at hsecond
    rw [hsecond]
    rfl

/-! ### Entries -/

/-- An entry of a list that may hold less-than signs. -/
structure IsTerm (text : List Char) : Prop where
  visible : trim text ≠ []
  balanced : isBalanced (· != ',') text = true

theorem IsTerm.isEntry (h : IsTerm text) (hnone : lessCount .outside text = 0) :
    IsEntry ',' text :=
  ⟨h.visible, nestedFrom_of_balanced h.balanced hnone⟩

theorem isBalanced_join {texts : List String} (h : ∀ t ∈ texts, IsTerm t.toList) :
    isBalanced (fun _ => true) (join ", " texts).toList = true := by
  have hcomma : isBalanced (fun _ => true) ", ".toList = true := rfl
  induction texts with
  | nil => rfl
  | cons first rest ih =>
      have hfirst := isBalanced_mono (fun _ _ => rfl) (h first List.mem_cons_self).balanced
      cases rest with
      | nil => exact hfirst
      | cons second more =>
          rw [toList_join_cons]
          have hrest := ih fun t ht => h t (List.mem_cons_of_mem first ht)
          have hhead := (isBalanced_append (fun _ _ => rfl) hfirst hcomma).1
          exact (isBalanced_append (fun _ h => h) hhead hrest).1

/-- **Terms are entries of their own** as long as only the last one holds a less-than sign. -/
theorem splitTopLevel_terms {texts : List String} (h : ∀ t ∈ texts, IsTerm t.toList)
    (hnone : ∀ t ∈ texts.dropLast, lessCount .outside t.toList = 0) :
    splitTopLevel ',' (join ", " texts).toList = texts.map fun t => trim t.toList := by
  rcases List.eq_nil_or_concat texts with rfl | ⟨front, last, rfl⟩
  · rfl
  · rw [List.concat_eq_append] at h hnone ⊢
    rw [List.dropLast_concat] at hnone
    have hlast := h last (by simp)
    have huncut : cut? (· == ',') last.toList = none := by
      have hsunk : cut? (· == ',') (last.toList ++ []) = none :=
        cut?_sunk (by decide) (fun c hc => by simpa using hc) hlast.balanced (Or.inl rfl) rfl
      rwa [List.append_nil] at hsunk
    rw [toList_join_concat,
      splitTopLevel_flatMap fun t ht => (h t (by simp [ht])).isEntry (hnone t ht),
      splitTopLevel_uncut huncut]
    simp [hlast.visible]

/-- **A term with a less-than sign takes all terms after it.** -/
theorem length_splitTopLevel_lt {texts : List String} (h : ∀ t ∈ texts, IsTerm t.toList)
    (hless : ∃ t ∈ texts.dropLast, 0 < lessCount .outside t.toList) :
    (splitTopLevel ',' (join ", " texts).toList).length < texts.length := by
  induction texts with
  | nil =>
      obtain ⟨t, ht, -⟩ := hless
      cases ht
  | cons first rest ih =>
      cases rest with
      | nil =>
          obtain ⟨t, ht, -⟩ := hless
          cases ht
      | cons second more =>
          have hfirst := h first List.mem_cons_self
          have hrest : ∀ t ∈ second :: more, IsTerm t.toList :=
            fun t ht => h t (List.mem_cons_of_mem first ht)
          rw [toList_join_cons, List.append_assoc]
          by_cases hnone : lessCount .outside first.toList = 0
          · have htail : ∃ t ∈ (second :: more).dropLast, 0 < lessCount .outside t.toList := by
              obtain ⟨t, ht, hpositive⟩ := hless
              rw [List.dropLast_cons_cons] at ht
              rcases List.mem_cons.mp ht with rfl | ht
              · exact absurd hnone hpositive.ne'
              · exact ⟨t, ht, hpositive⟩
            have hlength := ih hrest htail
            have hone : ([trim first.toList].filter fun entry => !entry.isEmpty).length ≤ 1 :=
              List.length_filter_le _ [trim first.toList]
            rw [show ", ".toList = [',', ' '] from rfl, List.cons_append, List.singleton_append,
              splitTopLevel_nested_cons (by decide) (hfirst.isEntry hnone).nested,
              splitTopLevel_cons_blank (by decide) (by decide), List.length_append,
              List.length_cons]
            omega
          · have hcomma : isBalanced (fun _ => true) ", ".toList = true := rfl
            have hafter := (isBalanced_append (fun _ h => h) hcomma (isBalanced_join hrest)).1
            have huncut : cut? (· == ',') _ = none :=
              cut?_sunk (by decide) (fun c hc => by simpa using hc) hfirst.balanced
                (Or.inr (Nat.pos_of_ne_zero hnone)) hafter
            rw [splitTopLevel_uncut huncut]
            refine Nat.lt_of_le_of_lt (List.length_filter_le _ _) ?_
            simp

/-! ### Matching brackets -/

/-- A balanced text is enclosed whole by other brackets than angle brackets. -/
theorem enclosedFrom?_balanced {opening : Char} (hopening : isOpening opening = true)
    (hangle : opening ≠ '<') (h : balancedFrom bare due l text = true) (rest : List Char) :
    enclosedFrom? opening (closerOf opening) l (due.count (closerOf opening)) (text ++ rest)
      = (enclosedFrom? opening (closerOf opening) .outside 0 rest).map (Enclosed.prepend text) := by
  have hcloser : '<' ≠ closerOf opening := by
    intro he
    have hclosing := isOpening_closerOf opening
    rw [← he] at hclosing
    exact absurd hclosing (by decide)
  refine balanced_induction h
    (motive := fun due l text => enclosedFrom? opening (closerOf opening) l
        (due.count (closerOf opening)) (text ++ rest)
      = (enclosedFrom? opening (closerOf opening) .outside 0 rest).map (Enclosed.prepend text))
    ?nil (fun due l cs hcode ih => ?less)
    (fun due l c cs next hcode hless hgreater hbare hnext ih => ?code)
    (fun due l c cs hinside ih => ?inside)
  case nil =>
    cases hrest : enclosedFrom? opening (closerOf opening) .outside 0 rest with
    | none => exact hrest
    | some e => exact hrest
  case less =>
    rw [List.cons_append, enclosedFrom?]
    simp only [hcode, Bool.true_and, Bool.and_eq_true, beq_iff_eq]
    rw [if_neg fun hc => hcloser hc.1, if_neg hangle.symm, if_neg hcloser, next_of_isCode hcode,
      ih, Option.map_map]
    rfl
  case code =>
    rw [← count_of_turn hnext hopening] at ih
    rw [List.cons_append, enclosedFrom?]
    simp only [hcode, Bool.true_and, Bool.and_eq_true, beq_iff_eq]
    rw [if_neg (closer_due hnext), next_of_isCode hcode, ih, Option.map_map]
    rfl
  case inside =>
    rw [List.cons_append, enclosedFrom?]
    simp only [hinside, Bool.false_and, Bool.false_eq_true, if_false]
    rw [ih, Option.map_map]
    rfl

/-- The bracket that closes a balanced text. -/
theorem enclosed?_balanced {opening : Char} (hopening : isOpening opening = true)
    (hangle : opening ≠ '<') (h : isBalanced bare text = true) (rest : List Char) :
    enclosed? opening (closerOf opening) (text ++ closerOf opening :: rest)
      = some ⟨text, rest⟩ := by
  have hclosed := enclosedFrom?_balanced hopening hangle h (closerOf opening :: rest)
  have hcode : Literal.outside.isCode (closerOf opening) = true :=
    isCode_iff.mpr ⟨rfl, isQuote_of_isClosing (isClosing_closerOf opening)⟩
  rw [enclosedFrom?, if_pos (by simp [hcode])] at hclosed
  refine hclosed.trans ?_
  simp [Enclosed.prepend]

end UseCases.Dart
