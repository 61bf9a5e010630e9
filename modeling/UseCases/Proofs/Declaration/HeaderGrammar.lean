/-
The grammar of headers.

A header is a marker, a payload, the closing bracket of each wrapper, a name and a parenthesis, with
white space between any two of them; an error union has a second type and a comma in front of its
payload.  `Wrapped` and `WrappedUnion` are such headers, part by part with the text between them.

The readers accept what can be spelled like that and nothing else.  Between two parts stands a mark
that belongs to neither of them, or white space, so no part could have ended elsewhere: a line that
starts with a header spells it in one way.  An error union need not start its line, so there can be
several of them; the one that is read is the leftmost.

A type token has at most one pair of angle brackets and each wrapper has one, so up to the
parenthesis a header with one wrapper is never more than two brackets deep.
-/
import UseCases.Proofs.Dart.Spelling
import UseCases.Proofs.Declaration.Continuation
import UseCases.Proofs.Declaration.Slicing

namespace UseCases.Declaration

open Dart Text

/-! ### Headers, part by part -/

/-- The end of a header: the bracket that closes the wrapper, the name, and the parenthesis. -/
structure Ending where
  beforeMark : Blanks
  beforeName : Blanks
  name : Identifier
  beforeParenthesis : Blanks
  /-- What follows the parenthesis. -/
  rest : List Char

/-- The ending as it is written, up to the parenthesis. -/
def Ending.front (e : Ending) : List Char :=
  e.beforeMark.val ++ '>' :: (e.beforeName.val ++ (e.name.val ++ e.beforeParenthesis.val))

/-- The ending and the text behind it. -/
def Ending.text (e : Ending) : List Char :=
  e.front ++ '(' :: e.rest

/-- A header with one wrapper. -/
structure Wrapped where
  gap : Blanks
  payload : TypeToken
  ending : Ending

namespace Wrapped

/-- The header as it is written with its marker, up to the parenthesis. -/
def front (marker : List Char) (w : Wrapped) : List Char :=
  marker ++ (w.gap.val ++ (w.payload.text ++ w.ending.front))

/-- The header and the text behind it. -/
def text (marker : List Char) (w : Wrapped) : List Char :=
  w.front marker ++ '(' :: w.ending.rest

/-- What is kept of the header. -/
def header (w : Wrapped) : Header :=
  ⟨w.ending.name.val, w.payload.text, w.ending.rest⟩

end Wrapped

/-- The header of an error union. -/
structure WrappedUnion where
  beforeEither : Blanks
  beforeLeft : Blanks
  left : TypeToken
  beforeComma : Blanks
  beforePayload : Blanks
  payload : TypeToken
  beforeClosing : Blanks
  ending : Ending

namespace WrappedUnion

/-- The header as it is written, up to the parenthesis. -/
def front (u : WrappedUnion) : List Char :=
  futureMarker ++ (u.beforeEither.val ++ (eitherMarker ++ (u.beforeLeft.val ++ (u.left.text ++
    (u.beforeComma.val ++ ',' :: (u.beforePayload.val ++ (u.payload.text ++
      (u.beforeClosing.val ++ '>' :: u.ending.front))))))))

/-- The header and the text behind it. -/
def text (u : WrappedUnion) : List Char :=
  u.front ++ '(' :: u.ending.rest

/-- What is kept of the header. -/
def header (u : WrappedUnion) : Header :=
  ⟨u.ending.name.val, u.payload.text, u.ending.rest⟩

end WrappedUnion

/-! ### One spelling -/

variable {marker line payload text : List Char} {header : Header}

theorem Ending.text_eq (e : Ending) :
    e.text = e.beforeMark.val ++ '>' :: (e.beforeName.val ++ (e.name.val ++
      (e.beforeParenthesis.val ++ '(' :: e.rest))) := by
  simp [Ending.text, Ending.front]

theorem Wrapped.text_eq (w : Wrapped) :
    w.text marker = marker ++ (w.gap.val ++ (w.payload.text ++ w.ending.text)) := by
  simp [Wrapped.text, Wrapped.front, Ending.text]

theorem WrappedUnion.text_eq (u : WrappedUnion) :
    u.text = futureMarker ++ (u.beforeEither.val ++ (eitherMarker ++ (u.beforeLeft.val ++
      (u.left.text ++ (u.beforeComma.val ++ ',' :: (u.beforePayload.val ++ (u.payload.text ++
        (u.beforeClosing.val ++ '>' :: u.ending.text)))))))) := by
  simp [WrappedUnion.text, WrappedUnion.front, Ending.text]

/-- A parenthesis ends a name, also behind white space. -/
theorem parenthesis_ends_name (blanks : Blanks) (rest : List Char) :
    ∀ c, (blanks.val ++ '(' :: rest).head? = some c → isIdentifierChar c = false := by
  obtain ⟨text, hblanks⟩ := blanks
  intro c hc
  cases text with
  | nil =>
      cases hc
      decide
  | cons d ds =>
      cases hc
      exact isIdentifierChar_of_isBlank (hblanks c List.mem_cons_self)

theorem endsType_ending (e : Ending) : EndsType e.text := by
  rw [e.text_eq]
  exact (endsType_mark (Or.inl rfl) _).blanks e.beforeMark

theorem startsVisible_eitherMarker (x : List Char) : StartsVisible (eitherMarker ++ x) := by
  rw [eitherMarker_eq]
  exact startsVisible_cons (by decide) _

theorem Ending.text_injective {e e' : Ending} (h : e.text = e'.text) : e = e' := by
  rw [e.text_eq, e'.text_eq] at h
  obtain ⟨hmark, h⟩ := blanks_unique (startsVisible_cons (by decide) _)
    (startsVisible_cons (by decide) _) h
  obtain ⟨hbefore, h⟩ := blanks_unique (startsVisible_name e.name.property _)
    (startsVisible_name e'.name.property _) (List.cons.inj h).2
  obtain ⟨hname, h⟩ := identifier_unique (parenthesis_ends_name _ _) (parenthesis_ends_name _ _) h
  obtain ⟨hparenthesis, h⟩ := blanks_unique (startsVisible_cons (by decide) _)
    (startsVisible_cons (by decide) _) h
  cases e
  cases e'
  cases hmark
  cases hbefore
  cases hname
  cases hparenthesis
  cases (List.cons.inj h).2
  rfl

/-- **A header with one wrapper is spelled in one way.** -/
theorem Wrapped.text_injective {w w' : Wrapped} (h : w.text marker = w'.text marker) : w = w' := by
  rw [w.text_eq, w'.text_eq, List.append_cancel_left_eq] at h
  obtain ⟨hgap, h⟩ := blanks_unique (startsVisible_type _ _) (startsVisible_type _ _) h
  obtain ⟨hpayload, h⟩ := TypeToken.unique (endsType_ending _) (endsType_ending _) h
  have hending := Ending.text_injective h
  cases w
  cases w'
  cases hgap
  cases hpayload
  cases hending
  rfl

/-- **An error union is spelled in one way.** -/
theorem WrappedUnion.text_injective {u u' : WrappedUnion} (h : u.text = u'.text) : u = u' := by
  rw [u.text_eq, u'.text_eq, List.append_cancel_left_eq] at h
  obtain ⟨heither, h⟩ := blanks_unique (startsVisible_eitherMarker _)
    (startsVisible_eitherMarker _) h
  obtain ⟨hbefore, h⟩ := blanks_unique (startsVisible_type _ _) (startsVisible_type _ _)
    ((List.append_cancel_left_eq _ _ _).mp h)
  obtain ⟨hleft, h⟩ := TypeToken.unique ((endsType_mark (Or.inr rfl) _).blanks _)
    ((endsType_mark (Or.inr rfl) _).blanks _) h
  obtain ⟨hcomma, h⟩ := blanks_unique (startsVisible_cons (by decide) _)
    (startsVisible_cons (by decide) _) h
  obtain ⟨hgap, h⟩ := blanks_unique (startsVisible_type _ _) (startsVisible_type _ _)
    (List.cons.inj h).2
  obtain ⟨hpayload, h⟩ := TypeToken.unique ((endsType_mark (Or.inl rfl) _).blanks _)
    ((endsType_mark (Or.inl rfl) _).blanks _) h
  obtain ⟨hclosing, h⟩ := blanks_unique (startsVisible_cons (by decide) _)
    (startsVisible_cons (by decide) _) h
  have hending := Ending.text_injective (List.cons.inj h).2
  cases u
  cases u'
  cases heither
  cases hbefore
  cases hleft
  cases hcomma
  cases hgap
  cases hpayload
  cases hclosing
  cases hending
  rfl

/-! ### What the readers accept -/

theorem finishHeader?_eq_some_iff :
    finishHeader? payload text = some header ↔
      ∃ e : Ending, text = e.text ∧ header = ⟨e.name.val, payload, e.rest⟩ := by
  simp only [finishHeader?, Option.bind_eq_bind, Option.bind_eq_some_iff, Option.pure_def,
    Option.some.injEq]
  constructor
  · rintro ⟨text', hmark, name, hname, rest, hopening, rfl⟩
    obtain ⟨beforeMark, rfl⟩ := (readMark?_eq_some_iff (by decide)).mp hmark
    obtain ⟨beforeName, htext'⟩ := exists_blanks text'
    obtain ⟨identifier, hskip, htoken, -⟩ := readIdentifier?_eq_some_iff.mp hname
    obtain ⟨beforeParenthesis, hrest⟩ := (readMark?_eq_some_iff (by decide)).mp hopening
    refine ⟨⟨beforeMark, beforeName, identifier, beforeParenthesis, rest⟩, ?_, by rw [htoken]⟩
    rw [Ending.text_eq, ← hrest, ← hskip, ← htext']
  · rintro ⟨e, rfl, rfl⟩
    have hstop := parenthesis_ends_name e.beforeParenthesis e.rest
    refine ⟨_, (readMark?_eq_some_iff (by decide)).mpr ⟨e.beforeMark, e.text_eq⟩,
      ⟨e.name.val, e.beforeParenthesis.val ++ '(' :: e.rest⟩, ?_, e.rest, ?_, rfl⟩
    · rw [skipBlanks_blanks _ (startsVisible_name e.name.property _)]
      exact readIdentifier?_append e.name.property hstop
    · exact (readMark?_eq_some_iff (by decide)).mpr ⟨e.beforeParenthesis, rfl⟩

/-- **A reader of one wrapper accepts its grammar**, and returns what is kept of the header. -/
theorem readWrapped?_eq_some_iff :
    readWrapped? marker line = some header ↔
      ∃ w : Wrapped, line = w.text marker ∧ header = w.header := by
  simp only [readWrapped?, Option.bind_eq_bind, Option.bind_eq_some_iff]
  constructor
  · rintro ⟨text, hmarker, lexeme, htype, hfinish⟩
    obtain ⟨gap, htext⟩ := exists_blanks text
    obtain ⟨t, htoken, hskip⟩ := readType?_split htype
    obtain ⟨e, hrest, rfl⟩ := finishHeader?_eq_some_iff.mp hfinish
    refine ⟨⟨gap, t, e⟩, ?_, by rw [htoken]; rfl⟩
    rw [Wrapped.text_eq, after?_eq_some.mp hmarker, ← hrest, ← hskip, ← htext]
  · rintro ⟨w, rfl, rfl⟩
    exact ⟨_, after?_eq_some.mpr w.text_eq, _, readType?_blanks _ _ (endsType_ending w.ending),
      finishHeader?_eq_some_iff.mpr ⟨w.ending, rfl, rfl⟩⟩

/-- **The reader of an error union accepts its grammar** at the start of a text. -/
theorem readErrorUnion?_eq_some_iff :
    readErrorUnion? line = some header ↔
      ∃ u : WrappedUnion, line = u.text ∧ header = u.header := by
  simp only [readErrorUnion?, Option.bind_eq_bind, Option.bind_eq_some_iff]
  constructor
  · rintro ⟨text, hfuture, union, heither, left, hleft, inner, hcomma, payload, hpayload, outer,
      hclosing, hfinish⟩
    obtain ⟨beforeEither, htext⟩ := exists_blanks text
    obtain ⟨beforeLeft, hunion⟩ := exists_blanks union
    obtain ⟨t, -, hskip⟩ := readType?_split hleft
    obtain ⟨beforeComma, hrest⟩ := (readMark?_eq_some_iff (by decide)).mp hcomma
    obtain ⟨beforePayload, hinner⟩ := exists_blanks inner
    obtain ⟨t', htoken, hskip'⟩ := readType?_split hpayload
    obtain ⟨beforeClosing, hrest'⟩ := (readMark?_eq_some_iff (by decide)).mp hclosing
    obtain ⟨e, hending, rfl⟩ := finishHeader?_eq_some_iff.mp hfinish
    refine ⟨⟨beforeEither, beforeLeft, t, beforeComma, beforePayload, t', beforeClosing, e⟩, ?_,
      by rw [htoken]; rfl⟩
    rw [WrappedUnion.text_eq, after?_eq_some.mp hfuture, ← hending, ← hrest', ← hskip', ← hinner,
      ← hrest, ← hskip, ← hunion, ← after?_eq_some.mp heither, ← htext]
  · rintro ⟨u, rfl, rfl⟩
    have heither : ∀ x, after? eitherMarker
        (skipBlanks (u.beforeEither.val ++ (eitherMarker ++ x))) = some x := fun x => by
      rw [skipBlanks_blanks _ (startsVisible_eitherMarker x), after?_append]
    exact ⟨_, after?_eq_some.mpr u.text_eq, _, heither _,
      _, readType?_blanks _ _ ((endsType_mark (Or.inr rfl) _).blanks _),
      _, (readMark?_eq_some_iff (by decide)).mpr ⟨_, rfl⟩,
      _, readType?_blanks _ _ ((endsType_mark (Or.inl rfl) _).blanks _),
      _, (readMark?_eq_some_iff (by decide)).mpr ⟨_, rfl⟩,
      finishHeader?_eq_some_iff.mpr ⟨u.ending, rfl, rfl⟩⟩

/-! ### Depth -/

/-- No beginning of the text has more than `n` angle brackets open. -/
def IsShallow (n : Nat) (text : List Char) : Prop :=
  ∀ start, start <+: text → start.count '<' ≤ start.count '>' + n

theorem isShallow_of_count_le {n : Nat} (h : text.count '<' ≤ n) : IsShallow n text := by
  intro start hstart
  have hle := hstart.sublist.count_le '<'
  omega

theorem IsShallow.of_start {n : Nat} {start : List Char} (h : IsShallow n text)
    (hstart : start <+: text) : IsShallow n start :=
  fun part hpart => h part (hpart.trans hstart)

theorem count_less_blanks (blanks : Blanks) : blanks.val.count '<' = 0 :=
  List.count_eq_zero.mpr fun hmem => absurd (blanks.property '<' hmem) (by decide)

/-- Nothing is opened after the payload. -/
theorem Ending.count_less_front (e : Ending) : e.front.count '<' = 0 := by
  have hname : e.name.val.count '<' = 0 :=
    List.count_eq_zero.mpr (not_mem_identifier e.name.property (by decide))
  simp [Ending.front, count_less_blanks, hname]

/-- The marker that a line starts with whose shape has one wrapper. -/
inductive Marks : Shape → List Char → Prop
  | plainFuture : Marks .plainFuture futureMarker
  | stream : Marks .stream streamMarker

variable {shape : Shape}

theorem Marks.header?_eq (h : Marks shape marker) (line : List Char) :
    header? shape line = readWrapped? marker line := by
  cases h <;> rfl

theorem Marks.count_less (h : Marks shape marker) : marker.count '<' = 1 := by
  cases h <;> decide

/-- **Up to the parenthesis two angle brackets are opened** at most, those of the wrapper and of the
payload's arguments. -/
theorem Wrapped.isShallow_front (hmarks : Marks shape marker) (w : Wrapped) :
    IsShallow 2 (w.front marker) := by
  have htype := count_less_type w.payload
  refine isShallow_of_count_le ?_
  rw [Wrapped.front, List.count_append, List.count_append, List.count_append, hmarks.count_less,
    count_less_blanks, w.ending.count_less_front]
  omega

/-- A beginning without a parenthesis ends before the first one. -/
theorem prefix_of_not_mem {c : Char} {start front rest : List Char}
    (h : start <+: front ++ c :: rest) (hc : c ∉ start) : start <+: front := by
  rw [List.append_cons] at h
  rcases List.prefix_or_prefix_of_prefix h (List.prefix_append (front ++ [c]) rest) with hle | hge
  · rcases List.prefix_concat_iff.mp hle with rfl | hshort
    · exact absurd (by simp) hc
    · exact hshort
  · exact absurd (hge.subset (by simp)) hc

/-- The parenthesis stands one byte before the end of the header. -/
theorem openAt_eq (front rest : List Char) :
    checkedSub (matchEnd (front ++ '(' :: rest) rest) 1 = .ok (utf8Length front) := by
  rw [List.append_cons, matchEnd_append, utf8Length_append]
  exact checkedSub_add (utf8Length front) 1

/-! ### The grammar -/

/-- How a line is read whose shape has one wrapper. -/
structure ReadsWrapped (shape : Shape) (marker line : List Char) : Prop where
  /-- A header is found exactly where one is spelled from the start of the line on. -/
  accepts : ∀ header, header? shape line = some header ↔
    ∃ w : Wrapped, line = w.text marker ∧ header = w.header
  unique : ∀ w w' : Wrapped, line = w.text marker → line = w'.text marker → w = w'
  /-- The offset that is computed is the size of what stands before the parenthesis. -/
  openAt : ∀ w : Wrapped, line = w.text marker →
    checkedSub (matchEnd line w.header.rest) 1 = .ok (utf8Length (w.front marker))
  shallow : ∀ w : Wrapped, line = w.text marker →
    IsShallow 2 (w.front marker) ∧ IsShallow 1 w.header.payload
  /-- A line that goes deeper before its first parenthesis has no header. -/
  rejects : ∀ start, start <+: line → '(' ∉ start → ¬IsShallow 2 start → header? shape line = none

/-- How a line is read that is taken for an error union. -/
structure ReadsUnion (line : List Char) : Prop where
  /-- A header is found exactly if one is spelled from some place of the line on. -/
  accepts : (header? .errorUnionFuture line).isSome = true ↔
    ∃ (before : List Char) (u : WrappedUnion), line = before ++ u.text
  /-- The header that is found is the leftmost one. -/
  leftmost : ∀ header, header? .errorUnionFuture line = some header ↔
    ∃ (before : List Char) (u : WrappedUnion), line = before ++ u.text ∧ header = u.header ∧
      ∀ (earlier : List Char) (u' : WrappedUnion), line = earlier ++ u'.text →
        before.length ≤ earlier.length
  unique : ∀ (before : List Char) (u u' : WrappedUnion),
    line = before ++ u.text → line = before ++ u'.text → u = u'
  openAt : ∀ (before : List Char) (u : WrappedUnion), line = before ++ u.text →
    checkedSub (matchEnd line u.header.rest) 1 = .ok (utf8Length (before ++ u.front))

theorem readsWrapped (hmarks : Marks shape marker) (line : List Char) :
    ReadsWrapped shape marker line := by
  have haccepts : ∀ header, header? shape line = some header ↔
      ∃ w : Wrapped, line = w.text marker ∧ header = w.header := fun header => by
    rw [hmarks.header?_eq]
    exact readWrapped?_eq_some_iff
  refine ⟨haccepts, ?unique, ?openAt, ?shallow, ?rejects⟩
  case unique =>
    rintro w w' hw hw'
    exact Wrapped.text_injective (hw.symm.trans hw')
  case openAt =>
    rintro w rfl
    exact openAt_eq (w.front marker) w.ending.rest
  case shallow =>
    rintro w -
    exact ⟨w.isShallow_front hmarks, isShallow_of_count_le (count_less_type w.payload)⟩
  case rejects =>
    intro start hstart hparenthesis hdeep
    rw [Option.eq_none_iff_forall_ne_some]
    intro header hheader
    obtain ⟨w, rfl, -⟩ := (haccepts header).mp hheader
    exact hdeep ((w.isShallow_front hmarks).of_start (prefix_of_not_mem hstart hparenthesis))

theorem readErrorUnion?_isSome_iff :
    (readErrorUnion? line).isSome = true ↔ ∃ u : WrappedUnion, line = u.text := by
  rw [Option.isSome_iff_exists]
  constructor
  · rintro ⟨header, h⟩
    obtain ⟨u, hline, -⟩ := readErrorUnion?_eq_some_iff.mp h
    exact ⟨u, hline⟩
  · rintro ⟨u, hline⟩
    exact ⟨u.header, readErrorUnion?_eq_some_iff.mpr ⟨u, hline, rfl⟩⟩

theorem readsUnion (line : List Char) : ReadsUnion line := by
  refine ⟨?accepts, fun header => ?leftmost, ?unique, ?openAt⟩
  case accepts =>
    refine firstMatch?_isSome_iff.trans ⟨?_, ?_⟩
    · rintro ⟨before, rest, hline, hread⟩
      obtain ⟨u, rfl⟩ := readErrorUnion?_isSome_iff.mp hread
      exact ⟨before, u, hline⟩
    · rintro ⟨before, u, hline⟩
      exact ⟨before, u.text, hline, readErrorUnion?_isSome_iff.mpr ⟨u, rfl⟩⟩
  case leftmost =>
    refine firstMatch?_eq_some_iff.trans ⟨?_, ?_⟩
    · rintro ⟨before, rest, hline, hread, hleast⟩
      obtain ⟨u, rfl, hheader⟩ := readErrorUnion?_eq_some_iff.mp hread
      exact ⟨before, u, hline, hheader, fun earlier u' hearlier =>
        hleast earlier u'.text hearlier (readErrorUnion?_isSome_iff.mpr ⟨u', rfl⟩)⟩
    · rintro ⟨before, u, hline, hheader, hleast⟩
      refine ⟨before, u.text, hline, readErrorUnion?_eq_some_iff.mpr ⟨u, rfl, hheader⟩, ?_⟩
      intro earlier more hmore hread
      obtain ⟨u', rfl⟩ := readErrorUnion?_isSome_iff.mp hread
      exact hleast earlier u' hmore
  case unique =>
    rintro before u u' rfl hline
    exact WrappedUnion.text_injective (List.append_cancel_left hline)
  case openAt =>
    rintro before u rfl
    rw [WrappedUnion.text, ← List.append_assoc]
    exact openAt_eq (before ++ u.front) u.ending.rest

/-- **Headers are read by their grammar.**  A plain future or a stream has a header exactly if the
line spells one from its start on, an error union exactly if the line spells one anywhere, and then
it is the leftmost.  From a given place on there is one way to spell it, and what is kept are its
name, its payload and the place of its parenthesis.  With one wrapper the text before that is at
most two angle brackets deep. -/
theorem header?_reads_grammar (line : List Char) :
    (∀ shape marker, Marks shape marker → ReadsWrapped shape marker line) ∧ ReadsUnion line :=
  ⟨fun _ _ hmarks => readsWrapped hmarks line, readsUnion line⟩

/-- The marker of an error union in front of another one: the second one is the header, and its
parenthesis is found behind it. -/
theorem second_union_is_header :
    ∃ (before : List Char) (u : WrappedUnion),
      "Future<Either<Future< Either< F , Map <A, B>? > > load (int a)".toList = before ++ u.text ∧
        (⟨"load".toList, "Map <A, B>?".toList, "int a)".toList⟩ : Header) = u.header ∧
        ∀ (earlier : List Char) (u' : WrappedUnion),
          "Future<Either<Future< Either< F , Map <A, B>? > > load (int a)".toList
            = earlier ++ u'.text → before.length ≤ earlier.length := by
  have hreads := (header?_reads_grammar
    "Future<Either<Future< Either< F , Map <A, B>? > > load (int a)".toList).2
  exact (hreads.leftmost _).mp (by decide)

end UseCases.Declaration
