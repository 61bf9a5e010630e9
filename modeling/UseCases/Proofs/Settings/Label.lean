/-
Where a label points.

A line gives a value to a key if it starts with the key and an equals sign, white space apart.  Such
a line is taken apart in one way: the key starts with no white space and holds no equals sign, so its
place, the first equals sign and the value behind it are all fixed.  The label is on the first line
of that form, and there is none exactly if there is no such line.

On that line the value is not labelled where it was read.  It is looked for in the line, and found
where it occurs first.  What is labelled is always spelled like the value, on boundaries of
characters and inside the line; it is the value itself exactly if it does not occur earlier in the
line, and it may: a value that is a part of its key is found in the key.
-/
import UseCases.Proofs.Text.Scanning
import UseCases.Proofs.Text.Slice
import UseCases.Settings.Label

namespace UseCases.Settings

open Text

variable {key part text : List Char}

/-! ### The first occurrence of a text -/

/-- **What stands before the first occurrence** is the shortest text that stands before one. -/
theorem beforeFirst?_eq_some {before : List Char} (h : beforeFirst? part text = some before) :
    (∃ more, text = before ++ (part ++ more)) ∧
      ∀ early more, text = early ++ (part ++ more) → before.length ≤ early.length := by
  induction text generalizing before with
  | nil =>
      rw [beforeFirst?] at h
      split at h
      · rename_i hempty
        cases h
        exact ⟨⟨[], by rw [List.isEmpty_iff.mp hempty]; rfl⟩, fun _ _ _ => Nat.zero_le _⟩
      · cases h
  | cons c cs ih =>
      rw [beforeFirst?] at h
      split at h
      · rename_i hprefix
        cases h
        obtain ⟨more, hmore⟩ := List.isPrefixOf_iff_prefix.mp hprefix
        exact ⟨⟨more, hmore.symm⟩, fun _ _ _ => Nat.zero_le _⟩
      · rename_i hprefix
        obtain ⟨before, hbefore, rfl⟩ := Option.map_eq_some_iff.mp h
        obtain ⟨⟨more, rfl⟩, hleast⟩ := ih hbefore
        refine ⟨⟨more, rfl⟩, fun early more' htext => ?_⟩
        cases early with
        | nil => exact absurd (List.isPrefixOf_iff_prefix.mpr ⟨more', htext.symm⟩) hprefix
        | cons d ds =>
            obtain ⟨-, hcs⟩ := List.cons_eq_cons.mp htext
            exact Nat.succ_le_succ (hleast ds more' hcs)

/-- A text that occurs is found. -/
theorem exists_beforeFirst? (early part more : List Char) :
    ∃ before, beforeFirst? part (early ++ (part ++ more)) = some before := by
  induction early with
  | nil =>
      refine ⟨[], ?_⟩
      have hprefix : part.isPrefixOf (part ++ more) = true :=
        List.isPrefixOf_iff_prefix.mpr (List.prefix_append part more)
      rw [List.nil_append]
      cases htext : part ++ more with
      | nil =>
          rw [beforeFirst?, (List.append_eq_nil_iff.mp htext).1]
          rfl
      | cons c cs => rw [beforeFirst?, ← htext, if_pos hprefix]
  | cons d ds ih =>
      obtain ⟨before, hbefore⟩ := ih
      rw [List.cons_append, beforeFirst?]
      split
      · exact ⟨[], rfl⟩
      · exact ⟨d :: before, by rw [hbefore]; rfl⟩

/-! ### Assignments -/

/-- A text that can stand before an equals sign: it is not empty and has neither white space nor an
equals sign in it. -/
structure IsKey (key : List Char) : Prop where
  ne_nil : key ≠ []
  visible : ∀ c ∈ key, isBlank c = false
  unsigned : '=' ∉ key

theorem IsKey.of_all (hne : key ≠ []) (hall : key.all (fun c => !isBlank c && c != '=') = true) :
    IsKey key := by
  have hchar : ∀ c ∈ key, isBlank c = false ∧ c ≠ '=' := by simpa using hall
  exact ⟨hne, fun c hc => (hchar c hc).1, fun hmem => (hchar '=' hmem).2 rfl⟩

/-- A line that starts with a key and an equals sign, white space apart. -/
structure Assignment (key : List Char) where
  lead : List Char
  gap : List Char
  rest : List Char
  lead_blank : ∀ c ∈ lead, isBlank c = true
  gap_blank : ∀ c ∈ gap, isBlank c = true

namespace Assignment

variable (a : Assignment key)

/-- What stands before the equals sign. -/
def front : List Char := a.lead ++ (key ++ a.gap)

/-- The line as it is written. -/
def line : List Char := a.front ++ '=' :: a.rest

/-- What the line gives to the key. -/
def value : List Char := trim a.rest

/-- What stands before the value, when there is one. -/
def beforeValue : List Char := a.front ++ '=' :: a.rest.takeWhile isBlank

/-- The range of the value, when the line starts at `offset`. -/
def valueSpan (offset : Nat) : Span :=
  ⟨offset + utf8Length a.beforeValue, utf8Length a.value⟩

/-- The range of the key, when the line starts at `offset`. -/
def keySpan (offset : Nat) : Span :=
  ⟨offset + utf8Length a.lead, utf8Length key⟩

/-- What is spelled like the value stands in the line before the value does. -/
def OccursEarlier : Prop :=
  ∃ early more, a.line = early ++ (a.value ++ more) ∧ early.length < a.beforeValue.length

variable {a}

/-- The value starts where the white space behind the equals sign ends. -/
theorem exists_line_eq (a : Assignment key) : ∃ more, a.line = a.beforeValue ++ (a.value ++ more) := by
  obtain ⟨more, -, hskip⟩ := exists_trimRight (skipBlanks a.rest)
  refine ⟨more, ?_⟩
  rw [line, beforeValue, value, trim, ← hskip, List.append_assoc, List.cons_append, skipBlanks,
    List.takeWhile_append_dropWhile]

/-- **The equals sign of an assignment is the first one** in its line. -/
theorem afterFirst?_line (hkey : IsKey key) (a : Assignment key) :
    afterFirst? ['='] a.line = some a.rest := by
  have hblank : ∀ {blanks : List Char}, (∀ c ∈ blanks, isBlank c = true) → '=' ∉ blanks := by
    intro blanks hblanks hmem
    exact absurd (hblanks '=' hmem) (by decide)
  have hfront : '=' ∉ a.front := by
    rw [front, List.mem_append, List.mem_append]
    rintro (hlead | hmem | hgap)
    · exact hblank a.lead_blank hlead
    · exact hkey.unsigned hmem
    · exact hblank a.gap_blank hgap
  rw [line, afterFirst?_append [] hfront]
  exact afterFirst?_start a.rest

end Assignment

variable {line value front : List Char}

/-- The line starts with the key and an equals sign. -/
def Assigns (key line : List Char) : Prop :=
  ∃ a : Assignment key, line = a.line

/-- White space ends at a key. -/
theorem IsKey.head_visible (hkey : IsKey key) (more : List Char) :
    ∀ c, (key ++ more).head? = some c → isBlank c = false := by
  obtain ⟨c, cs, rfl⟩ := List.exists_cons_of_ne_nil hkey.ne_nil
  rintro d ⟨rfl⟩
  exact hkey.visible _ List.mem_cons_self

/-- **A value is read** from an assignment, and from nothing else. -/
theorem valueOn?_eq_some_iff (hkey : IsKey key) :
    valueOn? key line = some value ↔ ∃ a : Assignment key, line = a.line ∧ value = a.value := by
  have hequals : ∀ {blanks : List Char}, (∀ c ∈ blanks, isBlank c = true) → ∀ rest,
      skipBlanks (blanks ++ '=' :: rest) = '=' :: rest := by
    intro blanks hblanks rest
    refine dropWhile_append_stop hblanks ?_
    rintro d ⟨rfl⟩
    decide
  constructor
  · intro h
    obtain ⟨behind, hbehind, h⟩ := Option.bind_eq_some_iff.mp h
    obtain ⟨rest, hrest, h⟩ := Option.bind_eq_some_iff.mp h
    obtain ⟨lead, hlead, hline⟩ := exists_skipBlanks line
    obtain ⟨gap, hgap, hgapped⟩ := exists_skipBlanks behind
    refine ⟨⟨lead, gap, rest, hlead, hgap⟩, ?_, (Option.some.inj h).symm⟩
    rw [hline, after?_eq_some.mp hbehind, hgapped, after?_eq_some.mp hrest]
    simp [Assignment.line, Assignment.front]
  · rintro ⟨a, rfl, rfl⟩
    have hline : a.line = a.lead ++ (key ++ (a.gap ++ '=' :: a.rest)) := by
      simp [Assignment.line, Assignment.front]
    rw [valueOn?, hline, skipBlanks, dropWhile_append_stop a.lead_blank (hkey.head_visible _),
      after?_append, Option.bind_eq_bind, Option.bind_some, hequals a.gap_blank]
    rfl

theorem valueOn?_line (hkey : IsKey key) (a : Assignment key) :
    valueOn? key a.line = some a.value :=
  (valueOn?_eq_some_iff hkey).mpr ⟨a, rfl, rfl⟩

theorem valueOn?_eq_none_iff (hkey : IsKey key) : valueOn? key line = none ↔ ¬Assigns key line := by
  rw [← Option.not_isSome_iff_eq_none, not_iff_not, Option.isSome_iff_exists]
  constructor
  · rintro ⟨value, h⟩
    obtain ⟨a, hline, -⟩ := (valueOn?_eq_some_iff hkey).mp h
    exact ⟨a, hline⟩
  · rintro ⟨a, rfl⟩
    exact ⟨a.value, valueOn?_line hkey a⟩

/-! ### The label on a line -/

/-- The range lies in the line that stands at `offset` in the text, on boundaries of characters, and
spells `part`. -/
structure Span.Spells (span : Span) (part line : List Char) (offset : Nat) (text : List Char) :
    Prop where
  first : offset ≤ span.offset
  last : span.offset + span.length ≤ offset + utf8Length line
  start : IsBoundary text span.offset
  stop : IsBoundary text (span.offset + span.length)
  spelled : slice text span.offset (span.offset + span.length) = .ok part

/-- A part of a line is spelled by its range. -/
theorem spells_of_append {early more back : List Char} (hline : line = early ++ (part ++ more))
    (htext : text = front ++ (line ++ back)) :
    Span.Spells ⟨utf8Length front + utf8Length early, utf8Length part⟩ part line (utf8Length front)
      text := by
  have hslice : slice text (utf8Length front + utf8Length early)
      (utf8Length front + utf8Length early + utf8Length part) = .ok part := by
    rw [← utf8Length_append, htext, hline]
    have hparts : front ++ (early ++ (part ++ more) ++ back)
        = (front ++ early) ++ (part ++ (more ++ back)) := by simp
    rw [hparts]
    exact slice_append _ _ _
  obtain ⟨-, hstart, hstop⟩ := slice_isOk_iff.mp ⟨part, hslice⟩
  refine ⟨Nat.le_add_right _ _, ?_, hstart, hstop, hslice⟩
  show utf8Length front + utf8Length early + utf8Length part ≤ _
  rw [hline, utf8Length_append, utf8Length_append]
  omega

/-- **Nothing is labelled on a line that assigns nothing.** -/
theorem spanOn?_eq_none_iff (hkey : IsKey key) (offset : Nat) :
    spanOn? key line offset = none ↔ ¬Assigns key line := by
  rw [spanOn?, Option.map_eq_none_iff, valueOn?_eq_none_iff hkey]

/-- An empty value leaves the label to the key. -/
theorem spanOn?_key (hkey : IsKey key) (a : Assignment key) (hvalue : a.value = []) (offset : Nat) :
    spanOn? key a.line offset = some (a.keySpan offset) := by
  have hlead : a.line.takeWhile isBlank = a.lead := by
    rw [Assignment.line, Assignment.front, List.append_assoc, List.append_assoc]
    exact takeWhile_append_stop a.lead_blank (hkey.head_visible _)
  rw [spanOn?, valueOn?_line hkey, Option.map_some, hvalue, List.isEmpty_nil, if_pos rfl, hlead]
  rfl

/-- **A value is labelled where it first occurs in its line.** -/
theorem spanOn?_value (hkey : IsKey key) (a : Assignment key) (hvalue : a.value ≠ [])
    (offset : Nat) :
    ∃ early more, a.line = early ++ (a.value ++ more) ∧
      spanOn? key a.line offset = some ⟨offset + utf8Length early, utf8Length a.value⟩ ∧
      (early = a.beforeValue ↔ ¬a.OccursEarlier) := by
  obtain ⟨more', hplace⟩ := a.exists_line_eq
  obtain ⟨early, hfirst⟩ := exists_beforeFirst? a.beforeValue a.value more'
  rw [← hplace] at hfirst
  obtain ⟨⟨more, hline⟩, hleast⟩ := beforeFirst?_eq_some hfirst
  refine ⟨early, more, hline, ?_, ?_⟩
  · have hnonempty : a.value.isEmpty = false := List.isEmpty_eq_false_iff.mpr hvalue
    rw [spanOn?, valueOn?_line hkey, Option.map_some, hnonempty, hfirst]
    rfl
  · constructor
    · rintro rfl ⟨early', more'', hearlier, hless⟩
      exact absurd (hleast early' more'' hearlier) (Nat.not_le.mpr hless)
    · intro hnone
      have hle := hleast a.beforeValue more' hplace
      have hge : a.beforeValue.length ≤ early.length :=
        Nat.not_lt.mp fun hless => hnone ⟨early, more, hline, hless⟩
      rw [hline] at hplace
      exact (List.append_inj hplace (Nat.le_antisymm hle hge)).1

/-! ### The label in a text -/

/-- The lines of a text make it up. -/
theorem flatten_linesInclusive (text : List Char) : (linesInclusive text).flatten = text := by
  induction text with
  | nil => rfl
  | cons c cs ih =>
      rw [linesInclusive]
      split
      · rw [List.flatten_cons, ih]
        rfl
      · split
        · rename_i hnil
          rw [hnil] at ih
          rw [← ih]
          rfl
        · rename_i line rest hlines
          rw [hlines, List.flatten_cons] at ih
          rw [List.flatten_cons, List.cons_append, ih]

theorem spanIn?_eq_none_iff (hkey : IsKey key) (offset : Nat) (lines : List (List Char)) :
    spanIn? key offset lines = none ↔ ∀ line ∈ lines, ¬Assigns key line := by
  induction lines generalizing offset with
  | nil => exact iff_of_true rfl (by simp)
  | cons line rest ih =>
      rw [spanIn?, Option.or_eq_none_iff, spanOn?_eq_none_iff hkey, ih, List.forall_mem_cons]

/-- **The first line that assigns something is labelled**, at its own offset. -/
theorem spanIn?_first (hkey : IsKey key) (offset : Nat) {before : List (List Char)}
    (hbefore : ∀ line ∈ before, ¬Assigns key line) (hline : Assigns key line)
    (after : List (List Char)) :
    spanIn? key offset (before ++ line :: after)
      = spanOn? key line (offset + utf8Length before.flatten) := by
  induction before generalizing offset with
  | nil =>
      have hsome : (spanOn? key line offset).isSome = true := by
        rw [← Option.ne_none_iff_isSome]
        exact fun hnone => (spanOn?_eq_none_iff hkey offset).mp hnone hline
      obtain ⟨span, hspan⟩ := Option.isSome_iff_exists.mp hsome
      rw [List.nil_append, spanIn?, List.flatten_nil, utf8Length, Nat.add_zero, hspan,
        Option.some_or]
  | cons first before ih =>
      have hfirst := hbefore first List.mem_cons_self
      rw [List.cons_append, spanIn?, (spanOn?_eq_none_iff hkey offset).mpr hfirst, Option.none_or,
        ih _ fun l hl => hbefore l (List.mem_cons_of_mem first hl), List.flatten_cons,
        utf8Length_append, Nat.add_assoc]

/--
**A label is on the first line that assigns something to the key**, and there is none exactly if no
line does.  The equals sign of that line is the first one in it.  Without a value behind it the label
is the key; otherwise it is the value, exactly if nothing that is spelled like the value stands
earlier in the line.  In any case the label lies in the line, on boundaries of characters, and spells
the key or the value.
-/
theorem label_on_first_assignment (text key : String) (hkey : IsKey key.toList) :
    (valueSpan? text key = none ↔ ∀ line ∈ linesInclusive text.toList, ¬Assigns key.toList line) ∧
    ∀ before after (a : Assignment key.toList),
      linesInclusive text.toList = before ++ a.line :: after →
      (∀ line ∈ before, ¬Assigns key.toList line) →
      ∃ span, valueSpan? text key = some span ∧ afterFirst? ['='] a.line = some a.rest ∧
        (a.value = [] → span = a.keySpan (utf8Length before.flatten) ∧
          span.Spells key.toList a.line (utf8Length before.flatten) text.toList) ∧
        (a.value ≠ [] →
          (span = a.valueSpan (utf8Length before.flatten) ↔ ¬a.OccursEarlier) ∧
          span.Spells a.value a.line (utf8Length before.flatten) text.toList) := by
  refine ⟨spanIn?_eq_none_iff hkey 0 _, fun before after a hlines hbefore => ?_⟩
  have htext : text.toList = before.flatten ++ (a.line ++ after.flatten) := by
    rw [← flatten_linesInclusive text.toList, hlines, List.flatten_append, List.flatten_cons]
  have hfirst : valueSpan? text key = spanOn? key.toList a.line (utf8Length before.flatten) := by
    rw [valueSpan?, hlines, spanIn?_first hkey 0 hbefore ⟨a, rfl⟩ after, Nat.zero_add]
  rw [hfirst]
  by_cases hvalue : a.value = []
  · have hline : a.line = a.lead ++ (key.toList ++ (a.gap ++ '=' :: a.rest)) := by
      simp [Assignment.line, Assignment.front]
    exact ⟨_, spanOn?_key hkey a hvalue _, a.afterFirst?_line hkey,
      fun _ => ⟨rfl, spells_of_append hline htext⟩, fun hne => absurd hvalue hne⟩
  · obtain ⟨early, more, hline, hspan, hplace⟩ :=
      spanOn?_value hkey a hvalue (utf8Length before.flatten)
    refine ⟨_, hspan, a.afterFirst?_line hkey, fun hnil => absurd hnil hvalue, fun _ =>
      ⟨?_, spells_of_append hline htext⟩⟩
    rw [← hplace, Assignment.valueSpan, Span.mk.injEq]
    constructor
    · rintro ⟨hoffset, -⟩
      obtain ⟨more', hvalueLine⟩ := a.exists_line_eq
      exact (append_inj_of_utf8Length (hline.symm.trans hvalueLine) (by omega)).1
    · rintro rfl
      exact ⟨rfl, rfl⟩

/-- A comment and a longer key stand before the line of the key, which has wide white space around
the key and ends in a carriage return. -/
def wideSettings : String :=
  "# mode = a\nmodel = b\n\u3000mode\u00a0= é mode\r\nmode = c\n"

/-- The third line of these settings. -/
def wideAssignment : Assignment "mode".toList :=
  ⟨"\u3000".toList, "\u00a0".toList, " é mode\r\n".toList, List.all_eq_true.mp (by decide),
    List.all_eq_true.mp (by decide)⟩

theorem label_of_wideSettings :
    IsKey "mode".toList ∧
      linesInclusive wideSettings.toList
        = ["# mode = a\n".toList, "model = b\n".toList] ++ wideAssignment.line
            :: ["mode = c\n".toList] ∧
      (∀ line ∈ ["# mode = a\n".toList, "model = b\n".toList], ¬Assigns "mode".toList line) ∧
      wideAssignment.value = "é mode".toList ∧
      valueSpan? wideSettings "mode" = some (wideAssignment.valueSpan 21) ∧
      ¬wideAssignment.OccursEarlier ∧
      (wideAssignment.valueSpan 21).Spells "é mode".toList wideAssignment.line 21
        wideSettings.toList := by
  have hkey : IsKey "mode".toList := .of_all (by decide) (by decide)
  have hlines : linesInclusive wideSettings.toList
      = ["# mode = a\n".toList, "model = b\n".toList] ++ wideAssignment.line
          :: ["mode = c\n".toList] := by decide
  have hbefore : ∀ line ∈ ["# mode = a\n".toList, "model = b\n".toList],
      ¬Assigns "mode".toList line := by
    intro line hline
    refine (valueOn?_eq_none_iff hkey).mp ?_
    revert line
    decide
  have hvalue : wideAssignment.value = "é mode".toList := by decide
  have hlabel : valueSpan? wideSettings "mode" = some (wideAssignment.valueSpan 21) := by decide
  obtain ⟨span, hspan, -, -, hplace⟩ :=
    (label_on_first_assignment wideSettings "mode" hkey).2 _ _ wideAssignment hlines hbefore
  obtain rfl := Option.some.inj (hlabel.symm.trans hspan)
  obtain ⟨hearlier, hspells⟩ := hplace (by decide)
  exact ⟨hkey, hlines, hbefore, hvalue, hlabel, hearlier.mp rfl, hspells⟩

/-- **A value that is a part of its key is labelled in the key.** -/
theorem label_inside_key :
    IsKey "level2".toList ∧
      ∃ a : Assignment "level2".toList,
        linesInclusive "level2 = 2\n".toList = [a.line] ∧ a.value = "2".toList ∧
        a.valueSpan 0 = ⟨9, 1⟩ ∧ valueSpan? "level2 = 2\n" "level2" = some ⟨5, 1⟩ :=
  ⟨.of_all (by decide) (by decide),
    ⟨[], " ".toList, " 2\n".toList, List.all_eq_true.mp (by decide),
      List.all_eq_true.mp (by decide)⟩,
    by decide, by decide, by decide, by decide⟩

end UseCases.Settings
