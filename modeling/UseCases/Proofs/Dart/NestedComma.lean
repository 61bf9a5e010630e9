/-
Commas inside brackets.

A comma between a parenthesis, a square bracket or a brace and the one that matches it belongs to
the entry around the two.  The splitter does not match brackets, it counts them, and it counts the
angle signs with them: a `>` that is an operator or the end of an arrow closes what was opened
before it, whatever that was.

So whether such a comma is taken for a separator is a matter of the text before it: it is, exactly
if no end of that text opens more brackets than it closes.  The bracket around the comma is still
open, and the brackets between the two are matched, so only angle signs can outweigh it.  Where no
more `>` than `<` stand between a bracket and each of the commas in it, the bracket stays in one
entry with all that it encloses.
-/
import UseCases.Proofs.Dart.Depth
import UseCases.Proofs.Dart.Enclosing
import UseCases.Proofs.Dart.Pieces

namespace UseCases.Dart

open Text

variable {l : Literal} {due : List Char} {opening c : Char}
  {text before inside after cs : List Char}

/-! ### Matched brackets -/

/-- The closing brackets that are due after one more character of code.  Angle signs are no
brackets. -/
def roundTurn? (due : List Char) (c : Char) : Option (List Char) :=
  if c = '<' ∨ c = '>' then some due else turn? due c

/-- The text closes the literal it starts in and the brackets that are `due`, and all parentheses,
square brackets and braces that it opens itself. -/
def roundFrom (due : List Char) (state : Literal) : List Char → Bool
  | [] => due.isEmpty && state == .outside
  | c :: cs =>
    if state.isCode c then
      match roundTurn? due c with
      | some due => roundFrom due .outside cs
      | none => false
    else roundFrom due (state.next c) cs

/-- Parentheses, square brackets and braces are matched in the text. -/
def isRound (text : List Char) : Bool :=
  roundFrom [] .outside text

/-- What a character of code does to the stack and to the two kinds of counts. -/
theorem roundTurn?_count {next : List Char} (h : roundTurn? due c = some next) :
    (if isClosing c = true then 1 else 0) + (if c = '<' then 1 else 0) + next.length
      = (if isOpening c = true then 1 else 0) + (if c = '>' then 1 else 0) + due.length := by
  unfold roundTurn? at h
  by_cases hangle : c = '<' ∨ c = '>'
  · rw [if_pos hangle] at h
    cases h
    rcases hangle with rfl | rfl <;> simp [isOpening, isClosing]
  · rw [if_neg hangle] at h
    obtain ⟨hless, hgreater⟩ := not_or.mp hangle
    rw [if_neg hless, if_neg hgreater]
    rcases turn?_eq_some.mp h with ⟨ho, rfl⟩ | ⟨ho, hc, rfl⟩ | ⟨ho, hc, rfl⟩
    · simp [ho, isClosing_of_isOpening ho]
      omega
    · simp [ho, hc]
      omega
    · simp [ho, hc]

/-- **In a beginning of a matched text** the brackets that are closed were opened in it, or were
due.  Angle signs are counted by the class and not matched, so they stand on both sides. -/
theorem roundFrom_count (h : roundFrom due l (before ++ after) = true) :
    classCount isClosing l before + codeCount '<' l before
      ≤ due.length + classCount isOpening l before + codeCount '>' l before := by
  induction before generalizing due l with
  | nil => simp [classCount_nil, codeCount_nil]
  | cons c cs ih =>
      rw [List.cons_append, roundFrom] at h
      rw [codeCount_cons, codeCount_cons]
      by_cases hcode : l.isCode c = true
      · rw [if_pos hcode] at h
        split at h
        · rename_i next hnext
          have hrest := ih h
          have hturn := roundTurn?_count hnext
          rw [classCount_code hcode, classCount_code hcode, next_of_isCode hcode]
          simp only [hcode, true_and]
          omega
        · cases h
      · rw [if_neg hcode] at h
        rw [Bool.not_eq_true] at hcode
        have hrest := ih h
        rw [classCount_text hcode, classCount_text hcode]
        simp only [hcode, Bool.false_eq_true, false_and, if_false, Nat.zero_add]
        exact hrest

/-! ### Parts of pieces -/

/-- **A comma at the top separates**: the entries are those before it and those after it. -/
theorem splitTopLevel_append {separator : Char} (hflat : isFlat separator = true) {a : List Char}
    (htop : (Place.top.after a).isTop separator = true) (b : List Char) :
    splitTopLevel separator (a ++ separator :: b)
      = splitTopLevel separator a ++ splitTopLevel separator b := by
  refine (splitTopLevel_append_iff (isCode_iff.mp (Place.isTop_iff.mp htop).1).2).mpr ?_ b
  rw [Place.afterCutting_eq_after hflat, Place.eq_top_of_isTop htop]

/-- The part of a text that stands between the two others is in one piece of it, the one that the
last piece of what stands before runs on into. -/
def StaysWhole (before part after : List Char) : Prop :=
  ∃ front first last back, pieces ',' before = front ++ [first] ∧
    pieces ',' (before ++ (part ++ after)) = front ++ (first ++ (part ++ last)) :: back

/-- A part that is cut nowhere stays whole. -/
theorem staysWhole_of_uncut {part : List Char}
    (h : cutFrom? (· == ',') (Place.top.after before) part = none) (after : List Char) :
    StaysWhole before part after := by
  have hflat : isFlat ',' = true := by decide
  obtain ⟨front, first, next, back, hbefore, -, hrest, hwhole⟩ :=
    piecesFrom_append ',' .top before (part ++ after)
  obtain ⟨front', part', last, back', hpart, -, -, hnext⟩ :=
    piecesFrom_append ',' (Place.top.after before) part after
  rw [Place.afterCutting_eq_after hflat] at hrest
  have huncut : front' ++ [part'] = [] ++ [part] := by
    rw [← hpart, piecesFrom_eq, h, List.nil_append]
  obtain ⟨rfl, hlast⟩ := List.append_inj' huncut rfl
  obtain rfl : part' = part := List.singleton_injective hlast
  rw [hnext, List.nil_append] at hrest
  cases hrest
  exact ⟨front, first, last, back, hbefore, hwhole⟩

/-- Nothing is cut where no character that may be cut at stands at the top. -/
theorem cutFrom?_eq_none_iff {isCut : Char → Bool} {p : Place} :
    cutFrom? isCut p text = none ↔
      ∀ x c y, text = x ++ c :: y → isCut c = true → (p.after x).isTop c = false := by
  constructor
  · rintro h x c y rfl hcut
    obtain ⟨-, hrest⟩ := cutFrom?_append_eq_none.mp h
    simpa [hcut] using (cutFrom?_cons_eq_none.mp hrest).1
  · intro h
    cases hcut : cutFrom? isCut p text with
    | none => rfl
    | some cut =>
        obtain ⟨htext, hmark, htop, -⟩ := cutFrom?_split hcut
        rw [h _ _ _ htext hmark] at htop
        cases htop

/-- Only the blanks around are trimmed off a text with two characters in it that are none. -/
theorem trim_around {c d : Char} (hc : isBlank c = false) (hd : isBlank d = false)
    (first middle last : List Char) :
    trim (first ++ c :: (middle ++ d :: last))
      = skipBlanks first ++ c :: (middle ++ d :: trimRight last) := by
  have hskip : skipBlanks (first ++ c :: (middle ++ d :: last))
      = skipBlanks first ++ c :: (middle ++ d :: last) := by
    unfold skipBlanks
    rw [List.dropWhile_append]
    split
    · rename_i hempty
      rw [List.isEmpty_iff.mp hempty, List.nil_append]
      exact skipBlanks_cons hc
    · rfl
  rw [trim, hskip, trimRight_append hc, trimRight_cons hc, trimRight_append hd, trimRight_cons hd]

/-- A part that stays whole and neither begins nor ends in white space stands in one entry. -/
theorem StaysWhole.exists_entry {c d : Char} {middle : List Char} (hc : isBlank c = false)
    (hd : isBlank d = false) (h : StaysWhole before (c :: (middle ++ [d])) after) :
    ∃ entry ∈ splitTopLevel ',' (before ++ ((c :: (middle ++ [d])) ++ after)),
      c :: (middle ++ [d]) <:+: entry := by
  obtain ⟨front, first, last, back, -, hpieces⟩ := h
  have hentry : trim (first ++ ((c :: (middle ++ [d])) ++ last))
      = skipBlanks first ++ c :: (middle ++ d :: trimRight last) := by
    rw [← trim_around hc hd]
    simp
  refine ⟨trim (first ++ ((c :: (middle ++ [d])) ++ last)), ?_, ?_⟩
  · refine List.mem_filter.mpr ⟨List.mem_map.mpr ⟨_, ?_, rfl⟩, ?_⟩
    · rw [hpieces]
      simp
    · rw [hentry]
      simp
  · rw [hentry]
    exact ⟨skipBlanks first, trimRight last, by simp⟩

/-! ### Commas in a group -/

/-- A parenthesis, square bracket or brace of a text with the one that matches it: what stands
before the two, between them and after them. -/
structure Group (text before : List Char) (opening : Char) (inside after : List Char) : Prop where
  whole : text = before ++ ((opening :: (inside ++ [closerOf opening])) ++ after)
  round : opening = '(' ∨ opening = '[' ∨ opening = '\x7b'
  code : Literal.outside.after before = .outside
  matched : isRound inside = true

namespace Group

variable {x y : List Char}

theorem isOpening (h : Group text before opening inside after) : isOpening opening = true := by
  rcases h.round with rfl | rfl | rfl <;> rfl

theorem isCode (h : Group text before opening inside after) :
    Literal.outside.isCode opening = true :=
  isCode_iff.mpr ⟨rfl, isQuote_of_isOpening h.isOpening⟩

/-- What is read in the brackets is read as if it stood alone, as far as literals go. -/
theorem literal_after (h : Group text before opening inside after) (x : List Char) :
    Literal.outside.after (before ++ opening :: x) = Literal.outside.after x := by
  rw [Literal.after_append, h.code, Literal.after, List.foldl_cons, next_of_isCode h.isCode]
  rfl

/-- **Only angle signs can close the bracket early**: it is open wherever no more `>` than `<`
stand between. -/
theorem leavesOpen (h : Group text before opening inside after) (hinside : inside = x ++ y)
    (hangle : codeCount '>' .outside x ≤ codeCount '<' .outside x) :
    LeavesOpen .outside (before ++ opening :: x) := by
  have hclosing := isClosing_of_isOpening h.isOpening
  have hmatched := h.matched
  rw [hinside] at hmatched
  have hcount := roundFrom_count hmatched
  refine ⟨before, opening :: x, rfl, ?_⟩
  rw [h.code, classCount_code h.isCode, classCount_code h.isCode, hclosing, h.isOpening]
  simp only [List.length_nil, Bool.false_eq_true, if_false, if_true] at hcount ⊢
  omega

/-- A comma in the brackets stands at the top if and only if no bracket is open before it. -/
theorem isTop_comma (h : Group text before opening inside after)
    (hx : Literal.outside.after x = .outside) :
    (Place.top.after (before ++ opening :: x)).isTop ',' = true ↔
      ¬LeavesOpen .outside (before ++ opening :: x) := by
  rw [isTop_after_iff (by decide), h.literal_after]
  exact and_iff_right hx

/-- Where the bracket is open before each comma in it, it is cut nowhere. -/
theorem uncut (h : Group text before opening inside after)
    (hopen : ∀ x y, inside = x ++ ',' :: y → Literal.outside.after x = .outside →
      LeavesOpen .outside (before ++ opening :: x)) :
    cutFrom? (· == ',') (Place.top.after before) (opening :: (inside ++ [closerOf opening]))
      = none := by
  refine cutFrom?_eq_none_iff.mpr fun start c rest hgroup hcomma => ?_
  obtain rfl : c = ',' := beq_iff_eq.mp hcomma
  cases start with
  | nil =>
      obtain ⟨rfl, -⟩ := List.cons_eq_cons.mp hgroup
      exact absurd h.isOpening (by decide)
  | cons d x =>
      obtain ⟨rfl, hinside⟩ := List.cons_eq_cons.mp hgroup
      rcases List.eq_nil_or_concat rest with rfl | ⟨y, closer, rfl⟩
      · obtain ⟨-, hlast⟩ := List.append_inj' hinside rfl
        have hclosing := isClosing_closerOf opening
        rw [List.singleton_injective hlast] at hclosing
        exact absurd hclosing (by decide)
      · have hsplit : inside ++ [closerOf opening] = (x ++ ',' :: y) ++ [closer] := by
          rw [hinside]
          simp
        obtain ⟨hinside, -⟩ := List.append_inj' hsplit rfl
        by_contra htop
        rw [Bool.not_eq_false, ← Place.after_append] at htop
        obtain ⟨hcode, hclosed⟩ := (isTop_after_iff (by decide)).mp htop
        exact hclosed (hopen x y hinside ((h.literal_after x).symm.trans hcode))

end Group

/-- **Which commas in a bracket are separators.**  A comma of code between a parenthesis, a square
bracket or a brace and the one that matches it stays in the entry around it if the text before it
leaves a bracket open, and separates if not; it does stay where no more `>` than `<` stand between
the bracket and it.  If all of them stay, one entry holds both brackets with all that is between
them. -/
theorem nested_comma_kept_iff (h : Group text before opening inside after) :
    (∀ x y, inside = x ++ ',' :: y → Literal.outside.after x = .outside →
      (LeavesOpen .outside (before ++ opening :: x) →
        StaysWhole (before ++ opening :: x) [','] (y ++ closerOf opening :: after)) ∧
      (¬LeavesOpen .outside (before ++ opening :: x) →
        splitTopLevel ',' text = splitTopLevel ',' (before ++ opening :: x)
          ++ splitTopLevel ',' (y ++ closerOf opening :: after)) ∧
      (codeCount '>' .outside x ≤ codeCount '<' .outside x →
        LeavesOpen .outside (before ++ opening :: x))) ∧
    ((∀ x y, inside = x ++ ',' :: y → Literal.outside.after x = .outside →
        LeavesOpen .outside (before ++ opening :: x)) →
      StaysWhole before (opening :: (inside ++ [closerOf opening])) after ∧
        ∃ entry ∈ splitTopLevel ',' text,
          opening :: (inside ++ [closerOf opening]) <:+: entry) := by
  refine ⟨fun x y hinside hx => ⟨fun hopen => ?_, fun hclosed => ?_, ?_⟩, fun hopen => ?_⟩
  · refine staysWhole_of_uncut (cutFrom?_cons_eq_none.mpr ⟨?_, rfl⟩) _
    simpa using fun htop => (h.isTop_comma hx).mp htop hopen
  · have htext : text = (before ++ opening :: x) ++ ',' :: (y ++ closerOf opening :: after) := by
      rw [h.whole, hinside]
      simp
    rw [htext]
    exact splitTopLevel_append (by decide) ((h.isTop_comma hx).mpr hclosed) _
  · exact h.leavesOpen hinside
  · have hwhole := staysWhole_of_uncut (h.uncut hopen) after
    have hvisible : isBlank opening = false ∧ isBlank (closerOf opening) = false := by
      rcases h.round with rfl | rfl | rfl <;> exact ⟨rfl, rfl⟩
    refine ⟨hwhole, ?_⟩
    rw [h.whole]
    exact hwhole.exists_entry hvisible.1 hvisible.2

/-- A less-than sign, a greater-than sign in a bracket of its own and a literal: all the commas of
the call stay. -/
theorem compared_arguments_kept :
    Group "f(a < b, [x > y, z], 'q>,'), n".toList "f".toList '('
        "a < b, [x > y, z], 'q>,'".toList ", n".toList ∧
      ∃ entry ∈ splitTopLevel ',' "f(a < b, [x > y, z], 'q>,'), n".toList,
        "(a < b, [x > y, z], 'q>,')".toList <:+: entry := by
  have hgroup : Group "f(a < b, [x > y, z], 'q>,'), n".toList "f".toList '('
      "a < b, [x > y, z], 'q>,'".toList ", n".toList :=
    ⟨by decide, by decide, by decide, by decide⟩
  refine ⟨hgroup, ((nested_comma_kept_iff hgroup).2 (forall_before_iff.mpr ?_)).2⟩
  decide

/-- **A greater-than sign closes the parenthesis**: the comma between the arguments of the call is
taken for a separator, although parentheses are matched in the text. -/
theorem greater_sign_cuts_call :
    isRound "f(a > b, c)".toList = true ∧
      Group "f(a > b, c)".toList "f".toList '(' "a > b, c".toList [] ∧
      "a > b, c".toList = "a > b".toList ++ ',' :: " c".toList ∧
      Literal.outside.after "a > b".toList = .outside ∧
      splitTopLevel ',' "f(a > b, c)".toList = ["f(a > b".toList, "c)".toList] :=
  ⟨by decide, ⟨by decide, by decide, by decide, by decide⟩, by decide, by decide, by decide⟩

end UseCases.Dart
