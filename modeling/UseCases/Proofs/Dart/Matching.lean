/-
The bracket that matches one.

A bracket is matched at the first character of code behind it up to which both kinds of bracket
stand equally often, the bracket itself counted.  That is said by counting alone, for each offset,
and knows no depth.

A reader that started at the bracket has a depth, and what ties the two is what it knows about the
text it has passed: in every beginning of it no more brackets have been closed than were opened, and
in all of it as many.  The first fact says that no offset before the one found is level, the second
that the one found is.  That there is a level offset at all is what the reader needs to find one.

What stands between the two brackets is cut out and read again from its own start.  No literal is
open there, since the bracket is no quote, so the second reading takes the same characters for code.
-/
import Mathlib.Order.Bounds.Basic
import UseCases.Proofs.Dart.Offset

namespace UseCases.Dart

open Text

variable {opening closing : Char} {l : Literal} {depth openAt index : Nat}
  {text front after part : List Char} {e : Enclosed}

/-! ### Counts in what is enclosed -/

/-- **What is enclosed closes the brackets that were open and never more**, and the bracket behind it
is code. -/
theorem enclosedFrom?_counts (hne : opening ≠ closing)
    (h : enclosedFrom? opening closing l depth text = some e) :
    (l.after e.inside).isCode closing = true ∧
      codeCount closing l e.inside = depth + codeCount opening l e.inside ∧
      ∀ before, before <+: e.inside →
        codeCount closing l before ≤ depth + codeCount opening l before := by
  induction text generalizing l depth e with
  | nil => cases h
  | cons c cs ih =>
      -- A character that is passed changes the depth by what it adds to the counts.
      have hpass : ∀ depth',
          (enclosedFrom? opening closing (l.next c) depth' cs).map (Enclosed.prepend [c]) = some e →
          (if l.isCode c = true ∧ c = closing then 1 else 0) + depth'
            = depth + (if l.isCode c = true ∧ c = opening then 1 else 0) →
          (l.after e.inside).isCode closing = true ∧
            codeCount closing l e.inside = depth + codeCount opening l e.inside ∧
            ∀ before, before <+: e.inside →
              codeCount closing l before ≤ depth + codeCount opening l before := by
        intro depth' hpassed hdepth
        obtain ⟨later, hlater, rfl⟩ := Option.map_eq_some_iff.mp hpassed
        obtain ⟨hcode, hcount, hbefore⟩ := ih hlater
        refine ⟨hcode, ?_, fun before hprefix => ?_⟩
        · show codeCount closing l (c :: later.inside) = depth + codeCount opening l (c :: later.inside)
          rw [codeCount_cons, codeCount_cons]
          omega
        · rcases List.prefix_cons_iff.mp hprefix with rfl | ⟨tail, rfl, htail⟩
          · exact Nat.zero_le _
          · have htail := hbefore tail htail
            rw [codeCount_cons, codeCount_cons]
            omega
      by_cases hclosing : l.isCode c = true ∧ c = closing
      · obtain ⟨hcode, rfl⟩ := hclosing
        cases depth with
        | zero =>
            rw [enclosedFrom?_last hcode] at h
            cases h
            refine ⟨hcode, rfl, fun before hprefix => ?_⟩
            rw [List.prefix_nil.mp hprefix]
            exact Nat.zero_le _
        | succ depth =>
            rw [enclosedFrom?_closing hne hcode, ← next_of_isCode hcode] at h
            refine hpass depth h ?_
            rw [if_pos ⟨hcode, rfl⟩, if_neg fun hopening => hne hopening.2.symm]
            omega
      · by_cases hopening : l.isCode c = true ∧ c = opening
        · obtain ⟨hcode, rfl⟩ := hopening
          rw [enclosedFrom?_opening hne hcode, ← next_of_isCode hcode] at h
          refine hpass (depth + 1) h ?_
          rw [if_neg hclosing, if_pos ⟨hcode, rfl⟩]
          omega
        · have hother : ¬(l.isCode c = true ∧ (c = opening ∨ c = closing)) := by
            rintro ⟨hcode, hc | hc⟩
            · exact hopening ⟨hcode, hc⟩
            · exact hclosing ⟨hcode, hc⟩
          rw [enclosedFrom?_other hother] at h
          refine hpass depth h ?_
          rw [if_neg hclosing, if_neg hopening]
          omega

/-! ### Level offsets -/

/-- At `index`, behind `openAt`, stands a character of code, and from `openAt` up to it both brackets
stand equally often outside literals. -/
def IsLevel (opening closing : Char) (text : List Char) (openAt index : Nat) : Prop :=
  ∃ front part c back, text = front ++ (part ++ c :: back) ∧ part ≠ [] ∧
    openAt = utf8Length front ∧ index = openAt + utf8Length part ∧
    (Literal.outside.after part).isCode c = true ∧
    codeCount opening .outside (part ++ [c]) = codeCount closing .outside (part ++ [c])

/-- Behind an opening bracket one closing bracket more is due. -/
theorem isLevel_iff (hne : opening ≠ closing) (hquote : isQuote opening = false) :
    IsLevel opening closing (front ++ opening :: after) (utf8Length front) index ↔
      ∃ inside c back, after = inside ++ c :: back ∧
        index = utf8Length front + (opening.utf8Size + utf8Length inside) ∧
        (Literal.outside.after inside).isCode c = true ∧
        codeCount opening .outside (inside ++ [c]) + 1
          = codeCount closing .outside (inside ++ [c]) := by
  have hcode : Literal.outside.isCode opening = true := isCode_iff.mpr ⟨rfl, hquote⟩
  have hnext : Literal.outside.next opening = .outside := next_of_isCode hcode
  have hcounts : ∀ more, codeCount opening .outside (opening :: more)
        = 1 + codeCount opening .outside more ∧
      codeCount closing .outside (opening :: more) = codeCount closing .outside more := by
    intro more
    rw [codeCount_cons, codeCount_cons, hnext, if_pos ⟨hcode, rfl⟩,
      if_neg fun hclosing => hne hclosing.2, Nat.zero_add]
    exact ⟨rfl, rfl⟩
  constructor
  · rintro ⟨front', part, c, back, htext, hpart, hopenAt, hindex, hlevel, hcount⟩
    obtain ⟨-, hrest⟩ := append_inj_of_utf8Length htext hopenAt
    obtain ⟨d, inside, rfl⟩ := List.exists_cons_of_ne_nil hpart
    obtain ⟨rfl, rfl⟩ := List.cons_eq_cons.mp hrest
    obtain ⟨hopenings, hclosings⟩ := hcounts (inside ++ [c])
    refine ⟨inside, c, back, rfl, hindex, ?_, ?_⟩
    · rwa [Literal.after, List.foldl_cons, hnext] at hlevel
    · rw [List.cons_append, hopenings, hclosings] at hcount
      omega
  · rintro ⟨inside, c, back, rfl, hindex, hlevel, hcount⟩
    obtain ⟨hopenings, hclosings⟩ := hcounts (inside ++ [c])
    refine ⟨front, opening :: inside, c, back, by simp, List.cons_ne_nil _ _, rfl, hindex, ?_, ?_⟩
    · rwa [Literal.after, List.foldl_cons, hnext]
    · rw [List.cons_append, hopenings, hclosings]
      omega

/-- **The bracket that is found stands at the least level offset.** -/
theorem isLeast_of_enclosed? (hne : opening ≠ closing) (hquote : isQuote opening = false)
    (h : enclosed? opening closing after = some e) :
    IsLeast {i | IsLevel opening closing (front ++ opening :: after) (utf8Length front) i}
      (utf8Length front + (opening.utf8Size + utf8Length e.inside)) := by
  obtain ⟨hcode, hcount, hbefore⟩ := enclosedFrom?_counts hne h
  have hafter := enclosed?_split h
  constructor
  · refine (isLevel_iff hne hquote).mpr ⟨e.inside, closing, e.after, hafter, rfl, hcode, ?_⟩
    rw [codeCount_append, codeCount_append, codeCount_cons, codeCount_cons,
      if_neg fun hopening => hne hopening.2.symm, if_pos ⟨hcode, rfl⟩, codeCount_nil, codeCount_nil,
      hcount]
    omega
  · rintro i hi
    obtain ⟨inside, c, back, hsplit, rfl, -, hlevel⟩ := (isLevel_iff hne hquote).mp hi
    by_contra hless
    -- A level offset before the one found would lie in what is enclosed.
    have hprefix : inside ++ [c] <+: e.inside := by
      have hshort : inside <+: e.inside :=
        prefix_of_utf8Length_le ⟨c :: back, hsplit.symm⟩ ⟨closing :: e.after, hafter.symm⟩ (by omega)
      obtain ⟨tail, htail⟩ := hshort
      cases tail with
      | nil =>
          rw [List.append_nil] at htail
          rw [htail] at hless
          omega
      | cons d ds =>
          rw [hafter, ← htail, List.append_assoc] at hsplit
          obtain ⟨rfl, -⟩ := List.cons_eq_cons.mp (List.append_cancel_left hsplit)
          exact ⟨ds, by rw [← htail]; simp⟩
    have hcounts := hbefore _ hprefix
    omega

/-- A bracket is found if some offset is level. -/
theorem enclosed?_isSome_of_isLevel (hne : opening ≠ closing) (hquote : isQuote opening = false)
    (h : IsLevel opening closing (front ++ opening :: after) (utf8Length front) index) :
    (enclosed? opening closing after).isSome = true := by
  obtain ⟨inside, c, back, rfl, -, -, hlevel⟩ := (isLevel_iff hne hquote).mp h
  refine (enclosed?_isSome_iff hne).mpr ⟨inside ++ [c], ⟨back, by simp⟩, ?_⟩
  omega

/-- The bracket that is found stands at its offset. -/
theorem sliceFrom_closing (h : enclosed? opening closing after = some e) :
    sliceFrom (front ++ opening :: after)
        (utf8Length front + (opening.utf8Size + utf8Length e.inside))
      = .ok (closing :: e.after) := by
  have hsplit : front ++ opening :: after
      = (front ++ opening :: e.inside) ++ closing :: e.after := by
    rw [enclosed?_split h, List.append_assoc, List.cons_append]
  have hlength : utf8Length (front ++ opening :: e.inside)
      = utf8Length front + (opening.utf8Size + utf8Length e.inside) := by
    rw [utf8Length_append, utf8Length]
  rw [hsplit, ← hlength]
  exact sliceFrom_append _ _

/--
**The bracket that is found is the matching one.**  From an opening bracket on that is no quote, the
offset that is found is the least one behind it at which a character of code stands and up to which
both brackets stand equally often outside literals, and none is found exactly if there is none.
No literal is open just before the bracket that is found, and what stands inside has the same
characters of code whether it is read from the opening bracket on or on its own.
-/
theorem matching_is_least_level (front after : List Char) (hne : opening ≠ closing)
    (hquote : isQuote opening = false) (hsize : opening.utf8Size = 1) :
    (∀ index, findMatching (front ++ opening :: after) (utf8Length front) opening closing
          = .ok (some index) ↔
        IsLeast {i | IsLevel opening closing (front ++ opening :: after) (utf8Length front) i}
          index) ∧
    (findMatching (front ++ opening :: after) (utf8Length front) opening closing = .ok none ↔
      ∀ i, ¬IsLevel opening closing (front ++ opening :: after) (utf8Length front) i) ∧
    (enclosed? opening closing after = none ↔
      ∀ i, ¬IsLevel opening closing (front ++ opening :: after) (utf8Length front) i) ∧
    ∀ index, findMatching (front ++ opening :: after) (utf8Length front) opening closing
        = .ok (some index) →
      ∃ inside rest, enclosed? opening closing after = some ⟨inside, rest⟩ ∧
        slice (front ++ opening :: after) (utf8Length front + 1) index = .ok inside ∧
        sliceFrom (front ++ opening :: after) index = .ok (closing :: rest) ∧
        Literal.outside.after (opening :: inside) = .outside ∧
        markCode .outside (opening :: inside) = (opening, true) :: markCode .outside inside := by
  have hcode : Literal.outside.isCode opening = true := isCode_iff.mpr ⟨rfl, hquote⟩
  rw [findMatching_eq hne hquote]
  cases hfound : enclosed? opening closing after with
  | none =>
      have hlevel : ∀ i,
          ¬IsLevel opening closing (front ++ opening :: after) (utf8Length front) i := by
        intro i hi
        have hsome := enclosed?_isSome_of_isLevel hne hquote hi
        rw [hfound] at hsome
        cases hsome
      refine ⟨fun index => ?_, iff_of_true rfl hlevel, iff_of_true rfl hlevel, fun index h => ?_⟩
      · exact iff_of_false (by simp) fun hleast => hlevel index hleast.1
      · cases h
  | some e =>
      have hleast : IsLeast {i | IsLevel opening closing (front ++ opening :: after)
            (utf8Length front) i} (utf8Length front + (opening.utf8Size + utf8Length e.inside)) :=
        isLeast_of_enclosed? hne hquote hfound
      have hnever : ¬∀ i,
          ¬IsLevel opening closing (front ++ opening :: after) (utf8Length front) i :=
        fun hlevel => hlevel _ hleast.1
      refine ⟨fun index => ?_, iff_of_false (by simp) hnever, iff_of_false (by simp) hnever,
        fun index h => ?_⟩
      · constructor
        · intro h
          cases h
          exact hleast
        · intro hindex
          rw [hindex.unique hleast]
          rfl
      · cases h
        have hafter := enclosed?_split hfound
        obtain ⟨hclosed, -, -⟩ := enclosedFrom?_counts hne hfound
        refine ⟨e.inside, e.after, rfl, ?_, ?_, ?_, ?_⟩
        · rw [hafter]
          exact slice_between hsize front e.inside e.after
        · exact sliceFrom_closing hfound
        · rw [Literal.after, List.foldl_cons, next_of_isCode hcode]
          exact (isCode_iff.mp hclosed).1
        · rw [markCode, hcode, next_of_isCode hcode]

/-- The text before an opening bracket may leave a literal open, since literals are counted from the
bracket on. -/
def beforeBracket : List Char := "it's f".toList

/-- A bracket in a literal and a pair of brackets stand before the matching one, and another pair
follows it. -/
def afterBracket : List Char := "')', (é)); g()".toList

theorem matching_behind_quote :
    '(' ≠ ')' ∧ isQuote '(' = false ∧ '('.utf8Size = 1 ∧
      findMatching (beforeBracket ++ '(' :: afterBracket) 6 '(' ')' = .ok (some 16) ∧
      IsLeast {i | IsLevel '(' ')' (beforeBracket ++ '(' :: afterBracket) 6 i} 16 ∧
      ∃ inside rest, enclosed? '(' ')' afterBracket = some ⟨inside, rest⟩ ∧
        slice (beforeBracket ++ '(' :: afterBracket) 7 16 = .ok inside ∧
        Literal.outside.after ('(' :: inside) = .outside := by
  have hne : '(' ≠ ')' := by decide
  have hquote : isQuote '(' = false := by decide
  have hsize : '('.utf8Size = 1 := by decide
  have hfound : findMatching (beforeBracket ++ '(' :: afterBracket) 6 '(' ')' = .ok (some 16) := by
    decide
  obtain ⟨hleast, -, -, hinside⟩ :=
    matching_is_least_level beforeBracket afterBracket hne hquote hsize
  obtain ⟨inside, rest, henclosed, hslice, -, hclosed, -⟩ := hinside 16 hfound
  exact ⟨hne, hquote, hsize, hfound, (hleast 16).mp hfound, inside, rest, henclosed, hslice, hclosed⟩

end UseCases.Dart
