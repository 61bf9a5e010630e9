/-
Cutting and trimming texts.

The readers of the library trim a text, cut it into lines, or look for a fixed beginning.
Each of these is described here by what it does to `before ++ after`, which is the form in
which a text that was just written arrives at its reader.
-/
import Mathlib.Data.List.Infix
import Mathlib.Data.List.TakeWhile
import Mathlib.Tactic.Common
import UseCases.Text.Blank
import UseCases.Text.Search

namespace UseCases.Text

/-! ### A fixed beginning -/

theorem after?_append (pattern rest : List Char) :
    after? pattern (pattern ++ rest) = some rest := by
  induction pattern with
  | nil => rfl
  | cons p ps ih => simpa [after?] using ih

/-- A text goes on after its beginning, and after nothing else. -/
theorem after?_eq_some {pattern text rest : List Char} :
    after? pattern text = some rest ↔ text = pattern ++ rest := by
  refine ⟨fun h => ?_, fun h => h ▸ after?_append pattern rest⟩
  induction pattern generalizing text with
  | nil => simpa [after?] using h
  | cons p ps ih =>
      cases text with
      | nil => simp [after?] at h
      | cons c cs =>
          simp only [after?] at h
          split at h
          · rename_i hpc
            rw [hpc, ih h]
            rfl
          · cases h

theorem after?_suffix {pattern text rest : List Char} (h : after? pattern text = some rest) :
    rest <:+ text :=
  ⟨pattern, (after?_eq_some.mp h).symm⟩

theorem afterFirst?_suffix {pattern text rest : List Char}
    (h : afterFirst? pattern text = some rest) : rest <:+ text := by
  induction text with
  | nil => exact after?_suffix h
  | cons c cs ih =>
      rw [afterFirst?, Option.or_eq_some_iff] at h
      rcases h with h | ⟨-, h⟩
      · exact after?_suffix h
      · exact (ih h).trans (List.suffix_cons c cs)

/-- A text is not found before its first character. -/
theorem afterFirst?_append {p : Char} (ps : List Char) {before : List Char} (h : p ∉ before)
    (rest : List Char) : afterFirst? (p :: ps) (before ++ rest) = afterFirst? (p :: ps) rest := by
  induction before with
  | nil => rfl
  | cons c cs ih =>
      obtain ⟨hc, hcs⟩ := not_or.mp (mt List.mem_cons.mpr h)
      rw [List.cons_append, afterFirst?, after?, if_neg hc, Option.none_or, ih hcs]

theorem afterFirst?_start {p : Char} {ps : List Char} (rest : List Char) :
    afterFirst? (p :: ps) (p :: ps ++ rest) = some rest := by
  have hafter := after?_append (p :: ps) rest
  rw [List.cons_append] at hafter ⊢
  rw [afterFirst?, hafter]
  rfl

theorem after?_of_head {pattern text : List Char} {p : Char} (hp : pattern.head? = some p)
    (h : text.head? ≠ some p) : after? pattern text = none := by
  obtain ⟨ps, rfl⟩ := List.head?_eq_some_iff.mp hp
  cases text with
  | nil => rfl
  | cons c cs =>
      rw [after?, if_neg]
      rintro rfl
      exact h rfl

theorem dropCopies_suffix (pattern text : List Char) : dropCopies pattern text <:+ text := by
  have hgo : ∀ fuel cs, dropCopies.go pattern fuel cs <:+ cs := by
    intro fuel
    induction fuel with
    | zero => exact fun cs => List.suffix_refl cs
    | succ fuel ih =>
        intro cs
        rw [dropCopies.go]
        split
        · rename_i rest hafter
          exact (ih rest).trans (after?_suffix hafter)
        · exact List.suffix_refl cs
  exact hgo text.length text

/-- Copies of a pattern are dropped until the text starts with none. -/
theorem exists_dropCopies {pattern : List Char} (hne : pattern ≠ []) (text : List Char) :
    ∃ copies, text = (List.replicate copies pattern).flatten ++ dropCopies pattern text ∧
      ¬pattern <+: dropCopies pattern text := by
  have hgo : ∀ fuel cs, cs.length ≤ fuel →
      ∃ copies, cs = (List.replicate copies pattern).flatten ++ dropCopies.go pattern fuel cs ∧
        ¬pattern <+: dropCopies.go pattern fuel cs := by
    intro fuel
    induction fuel with
    | zero =>
        intro cs hcs
        obtain rfl := List.eq_nil_of_length_eq_zero (Nat.le_zero.mp hcs)
        exact ⟨0, rfl, fun hprefix => hne (List.prefix_nil.mp hprefix)⟩
    | succ fuel ih =>
        intro cs hcs
        rw [dropCopies.go]
        split
        · rename_i rest hafter
          obtain rfl := after?_eq_some.mp hafter
          have hpattern := List.length_pos_iff.mpr hne
          rw [List.length_append] at hcs
          obtain ⟨copies, hrest, hdone⟩ := ih rest (by omega)
          refine ⟨copies + 1, ?_, hdone⟩
          rw [List.replicate_succ, List.flatten_cons, List.append_assoc, ← hrest]
        · rename_i hnone
          refine ⟨0, rfl, ?_⟩
          rintro ⟨rest, rfl⟩
          rw [after?_append] at hnone
          cases hnone
  exact hgo text.length text le_rfl

theorem startsWith_append (pattern rest : List Char) :
    startsWith pattern (pattern ++ rest) = true := by
  simp [startsWith, List.isPrefixOf_iff_prefix]

theorem contains_iff {pattern text : List Char} :
    contains pattern text = true ↔ pattern <:+: text := by
  induction text with
  | nil => simp [contains, List.infix_nil]
  | cons c cs ih =>
      rw [contains, Bool.or_eq_true, ih, List.isPrefixOf_iff_prefix, List.infix_cons_iff]

/-- What stands before the places of a character is decided by going over the beginnings. -/
theorem forall_before_iff {c : Char} {text : List Char} {p : List Char → Prop} :
    (∀ x y, text = x ++ c :: y → p x) ↔ ∀ x ∈ text.inits, x ++ [c] <+: text → p x := by
  constructor
  · rintro h x - ⟨y, hy⟩
    exact h x y (by rw [← hy]; simp)
  · rintro h x y rfl
    exact h x (List.mem_inits _ _ |>.mpr ⟨_, rfl⟩) ⟨y, by simp⟩

/-- A text that lacks a character does not reach over it. -/
theorem infix_append_cons {pattern a b : List Char} {c : Char} (hc : c ∉ pattern)
    (h : pattern <:+: a ++ c :: b) : pattern <:+: a ∨ pattern <:+: b := by
  rcases List.infix_append_iff.mp h with hwithin | hwithin | ⟨front, back, rfl, hfront, hback⟩
  · exact Or.inl hwithin
  · rcases List.infix_cons_iff.mp hwithin with hprefix | hwithin
    · rcases List.prefix_cons_iff.mp hprefix with rfl | ⟨tail, rfl, -⟩
      · exact Or.inl List.nil_infix
      · exact absurd List.mem_cons_self hc
    · exact Or.inr hwithin
  · rcases List.prefix_cons_iff.mp hback with rfl | ⟨tail, rfl, -⟩
    · rw [List.append_nil]
      exact Or.inl hfront.isInfix
    · exact absurd (List.mem_append_right front List.mem_cons_self) hc

theorem infix_append_disjoint {pattern a b : List Char} (hne : pattern ≠ [])
    (h : ∀ c ∈ b, c ∉ pattern) : pattern <:+: a ++ b ↔ pattern <:+: a := by
  refine ⟨fun hwithin => ?_, fun hwithin => hwithin.trans (List.prefix_append a b).isInfix⟩
  cases b with
  | nil => rwa [List.append_nil] at hwithin
  | cons c cs =>
      rcases infix_append_cons (h c List.mem_cons_self) hwithin with ha | hcs
      · exact ha
      · obtain ⟨d, ds, rfl⟩ := List.exists_cons_of_ne_nil hne
        have hd : d ∈ cs := hcs.subset List.mem_cons_self
        exact absurd List.mem_cons_self (h d (List.mem_cons_of_mem c hd))

/-- What is read somewhere in a text is read at the start of a rest of it. -/
theorem exists_of_firstMatch? {α : Type} {read? : List Char → Option α} {text : List Char} {a : α}
    (h : firstMatch? read? text = some a) : ∃ rest, rest <:+ text ∧ read? rest = some a := by
  induction text with
  | nil => exact ⟨[], List.suffix_refl [], h⟩
  | cons c cs ih =>
      rw [firstMatch?, Option.or_eq_some_iff] at h
      rcases h with h | ⟨-, h⟩
      · exact ⟨c :: cs, List.suffix_refl (c :: cs), h⟩
      · obtain ⟨rest, hsuffix, hread⟩ := ih h
        exact ⟨rest, hsuffix.trans (List.suffix_cons c cs), hread⟩

/-- What is read at the start of a text is its first match. -/
theorem firstMatch?_of_start {α : Type} {read? : List Char → Option α} {text : List Char} {a : α}
    (h : read? text = some a) : firstMatch? read? text = some a := by
  cases text with
  | nil => exact h
  | cons c cs => rw [firstMatch?, h, Option.some_or]

/-- Something is read somewhere in a text if and only if it can be read somewhere. -/
theorem firstMatch?_isSome_iff {α : Type} {read? : List Char → Option α} {text : List Char} :
    (firstMatch? read? text).isSome = true ↔
      ∃ before rest, text = before ++ rest ∧ (read? rest).isSome = true := by
  constructor
  · intro h
    obtain ⟨a, ha⟩ := Option.isSome_iff_exists.mp h
    obtain ⟨rest, ⟨before, hbefore⟩, hread⟩ := exists_of_firstMatch? ha
    exact ⟨before, rest, hbefore.symm, Option.isSome_iff_exists.mpr ⟨a, hread⟩⟩
  · rintro ⟨before, rest, rfl, hread⟩
    induction before with
    | nil =>
        obtain ⟨a, ha⟩ := Option.isSome_iff_exists.mp hread
        rw [List.nil_append, firstMatch?_of_start ha]
        rfl
    | cons c cs ih => rw [List.cons_append, firstMatch?, Option.isSome_or, ih, Bool.or_true]

/-- **What is read somewhere in a text** is what is read at the leftmost place where anything is. -/
theorem firstMatch?_eq_some_iff {α : Type} {read? : List Char → Option α} {text : List Char}
    {a : α} :
    firstMatch? read? text = some a ↔
      ∃ before rest, text = before ++ rest ∧ read? rest = some a ∧
        ∀ earlier more, text = earlier ++ more → (read? more).isSome = true →
          before.length ≤ earlier.length := by
  induction text with
  | nil =>
      refine ⟨fun h => ⟨[], [], rfl, h, fun _ _ _ _ => Nat.zero_le _⟩, ?_⟩
      rintro ⟨before, rest, htext, hread, -⟩
      obtain ⟨-, rfl⟩ := List.append_eq_nil_iff.mp htext.symm
      exact hread
  | cons c cs ih =>
      rw [firstMatch?, Option.or_eq_some_iff, ih]
      constructor
      · rintro (hread | ⟨hnone, before, rest, rfl, hread, hleast⟩)
        · exact ⟨[], c :: cs, rfl, hread, fun _ _ _ _ => Nat.zero_le _⟩
        · refine ⟨c :: before, rest, rfl, hread, fun earlier more hsplit hmore => ?_⟩
          cases earlier with
          | nil =>
              obtain rfl : c :: (before ++ rest) = more := hsplit
              rw [hnone] at hmore
              cases hmore
          | cons d ds =>
              obtain ⟨-, hcs⟩ := List.cons_eq_cons.mp hsplit
              exact Nat.succ_le_succ (hleast ds more hcs hmore)
      · rintro ⟨before, rest, htext, hread, hleast⟩
        cases before with
        | nil =>
            obtain rfl : c :: cs = rest := htext
            exact Or.inl hread
        | cons d ds =>
            obtain ⟨rfl, rfl⟩ := List.cons_eq_cons.mp htext
            refine Or.inr ⟨?_, ds, rest, rfl, hread, fun earlier more hsplit hmore => ?_⟩
            · rw [← Option.not_isSome_iff_eq_none]
              intro hstart
              exact Nat.not_succ_le_zero _ (hleast [] _ rfl hstart)
            · exact Nat.le_of_succ_le_succ
                (hleast (c :: earlier) more (by rw [hsplit]; rfl) hmore)

/-! ### Taking and dropping -/

theorem takeWhile_append_stop {p : Char → Bool} {a rest : List Char}
    (ha : ∀ c ∈ a, p c = true) (hrest : ∀ c, rest.head? = some c → p c = false) :
    (a ++ rest).takeWhile p = a := by
  rw [List.takeWhile_append_of_pos ha]
  cases rest with
  | nil => simp
  | cons c cs => simp [hrest c rfl]

theorem dropWhile_append_stop {p : Char → Bool} {a rest : List Char}
    (ha : ∀ c ∈ a, p c = true) (hrest : ∀ c, rest.head? = some c → p c = false) :
    (a ++ rest).dropWhile p = rest := by
  rw [List.dropWhile_append_of_pos ha]
  cases rest with
  | nil => rfl
  | cons c cs => simp [hrest c rfl]

/-- Characters of a class before something that is not of the class are told apart in one way. -/
theorem class_unique {p : Char → Bool} {a b x y : List Char} (ha : ∀ c ∈ a, p c = true)
    (hb : ∀ c ∈ b, p c = true)
    (hx : ∀ c, x.head? = some c → p c = false) (hy : ∀ c, y.head? = some c → p c = false)
    (h : a ++ x = b ++ y) : a = b ∧ x = y := by
  have htake := congrArg (List.takeWhile p) h
  have hdrop := congrArg (List.dropWhile p) h
  rw [takeWhile_append_stop ha hx, takeWhile_append_stop hb hy] at htake
  rw [dropWhile_append_stop ha hx, dropWhile_append_stop hb hy] at hdrop
  exact ⟨htake, hdrop⟩

/-- Leading copies of a character are dropped, and only they. -/
theorem exists_dropWhile_copies (c : Char) (text : List Char) :
    ∃ copies, text = List.replicate copies c ++ text.dropWhile (· == c) ∧
      (text.dropWhile (· == c)).head? ≠ some c := by
  induction text with
  | nil => exact ⟨0, rfl, by simp⟩
  | cons d ds ih =>
      rw [List.dropWhile_cons]
      by_cases hd : (d == c) = true
      · obtain ⟨copies, htext, hhead⟩ := ih
        rw [if_pos hd]
        refine ⟨copies + 1, ?_, hhead⟩
        rw [List.replicate_succ, List.cons_append, ← htext, beq_iff_eq.mp hd]
      · rw [if_neg hd]
        exact ⟨0, rfl, fun hhead => hd (beq_iff_eq.mpr (Option.some.inj hhead))⟩

theorem skipBlanks_cons_blank {c : Char} {cs : List Char} (h : isBlank c = true) :
    skipBlanks (c :: cs) = skipBlanks cs := by
  simp [skipBlanks, h]

theorem skipBlanks_cons {c : Char} {cs : List Char} (h : isBlank c = false) :
    skipBlanks (c :: cs) = c :: cs := by
  simp [skipBlanks, h]

/-! ### Trimming -/

theorem trim_cons_blank {c : Char} {cs : List Char} (h : isBlank c = true) :
    trim (c :: cs) = trim cs := by
  rw [trim, trim, skipBlanks_cons_blank h]

theorem trimRight_append_blank {a : List Char} {c : Char} (h : isBlank c = true) :
    trimRight (a ++ [c]) = trimRight a := by
  simp [trimRight, h]

theorem trimRight_append {a b : List Char} {c : Char} (h : isBlank c = false) :
    trimRight (a ++ c :: b) = a ++ trimRight (c :: b) := by
  have hreverse : (c :: b).reverse.dropWhile isBlank ++ a.reverse
      = ((c :: b).reverse ++ a.reverse).dropWhile isBlank := by
    rw [List.dropWhile_append]
    split
    · rename_i hempty
      rw [List.isEmpty_iff] at hempty
      have hblank := List.dropWhile_eq_nil_iff.mp hempty c (by simp)
      rw [h] at hblank
      cases hblank
    · rfl
  unfold trimRight
  rw [List.reverse_append, ← hreverse]
  simp

theorem trimRight_prefix (a : List Char) : trimRight a <+: a := by
  have hsuffix := List.dropWhile_suffix isBlank (l := a.reverse)
  rw [← List.reverse_prefix, List.reverse_reverse] at hsuffix
  exact hsuffix

/-- Only what follows a character that is no blank is trimmed off. -/
theorem trimRight_cons {c : Char} (h : isBlank c = false) (b : List Char) :
    trimRight (c :: b) = c :: trimRight b := by
  unfold trimRight
  rw [List.reverse_cons, List.dropWhile_append]
  split
  · rename_i hempty
    rw [List.isEmpty_iff] at hempty
    simp [h, hempty]
  · simp

/-- A text that begins and ends with other characters than blanks stays, whatever follows. -/
theorem trim_append {a : List Char} (ha : a ≠ [])
    (hhead : ∀ c, a.head? = some c → isBlank c = false)
    (hlast : ∀ c, a.getLast? = some c → isBlank c = false) (b : List Char) :
    trim (a ++ b) = a ++ trimRight b := by
  obtain ⟨d, ds, hd⟩ := List.exists_cons_of_ne_nil ha
  have hskip : skipBlanks (a ++ b) = a ++ b := by
    rw [hd, List.cons_append]
    exact skipBlanks_cons (hhead d (by rw [hd]; rfl))
  rcases List.eq_nil_or_concat a with rfl | ⟨front, c, rfl⟩
  · exact absurd rfl ha
  · have hc : isBlank c = false := hlast c (by simp)
    rw [trim, hskip, List.concat_eq_append, List.append_assoc, List.singleton_append,
      trimRight_append hc, trimRight_cons hc, List.append_assoc, List.singleton_append]

theorem trim_append_prefix {a : List Char} (ha : a ≠ [])
    (hhead : ∀ c, a.head? = some c → isBlank c = false)
    (hlast : ∀ c, a.getLast? = some c → isBlank c = false) (b : List Char) :
    ∃ rest, rest <+: b ∧ trim (a ++ b) = a ++ rest :=
  ⟨trimRight b, trimRight_prefix b, trim_append ha hhead hlast b⟩

theorem trim_append_blank {a : List Char} {c : Char} (h : isBlank c = true) :
    trim (a ++ [c]) = trim a := by
  unfold trim skipBlanks
  rw [List.dropWhile_append]
  split
  · rename_i hempty
    rw [List.isEmpty_iff] at hempty
    rw [hempty]
    simp [h, trimRight]
  · exact trimRight_append_blank h

/-- Nothing is trimmed off a text that begins and ends with other characters than blanks. -/
theorem trim_eq_self {a : List Char} (hhead : ∀ c, a.head? = some c → isBlank c = false)
    (hlast : ∀ c, a.getLast? = some c → isBlank c = false) : trim a = a := by
  have hskip : skipBlanks a = a := by
    cases a with
    | nil => rfl
    | cons c cs => exact skipBlanks_cons (hhead c rfl)
  rw [trim, hskip]
  rcases List.eq_nil_or_concat a with rfl | ⟨front, c, rfl⟩
  · rfl
  · have hc : isBlank c = false := hlast c (by simp)
    simp [trimRight, hc]

theorem trim_eq_self_of_ends {a : List Char} {c d : Char} (hhead : a.head? = some c)
    (hlast : a.getLast? = some d) (hc : isBlank c = false) (hd : isBlank d = false) :
    trim a = a := by
  refine trim_eq_self (fun e he => ?_) fun e he => ?_
  · rw [hhead] at he
    cases he
    exact hc
  · rw [hlast] at he
    cases he
    exact hd

theorem trim_nil : trim [] = [] := rfl

theorem length_trim_le (a : List Char) : (trim a).length ≤ a.length := by
  unfold trim trimRight skipBlanks
  rw [List.length_reverse]
  refine le_trans (List.dropWhile_suffix _).length_le ?_
  rw [List.length_reverse]
  exact (List.dropWhile_suffix _).length_le

/-- A trimmed text does not end in a blank. -/
theorem isBlank_of_getLast_trimmed {a : List Char} (h : trim a = a) {c : Char}
    (hc : a.getLast? = some c) : isBlank c = false := by
  by_contra hblank
  obtain ⟨front, rfl⟩ := List.getLast?_eq_some_iff.mp hc
  have hlength := length_trim_le front
  rw [trim_append_blank (by simpa using hblank)] at h
  rw [h, List.length_append, List.length_singleton] at hlength
  omega

theorem mem_of_mem_trim {c : Char} {a : List Char} (h : c ∈ trim a) : c ∈ a := by
  unfold trim trimRight at h
  rw [List.mem_reverse] at h
  have hskip := (List.dropWhile_suffix _).subset h
  rw [List.mem_reverse] at hskip
  exact (List.dropWhile_suffix _).subset hskip

theorem isBlank_of_head_skipBlanks {a : List Char} {c : Char} (h : (skipBlanks a).head? = some c) :
    isBlank c = false := by
  have hnot := List.head?_dropWhile_not isBlank a
  unfold skipBlanks at h
  rw [h] at hnot
  simpa using hnot

/-- What stands before the text that blanks are skipped to. -/
theorem exists_skipBlanks (a : List Char) :
    ∃ blanks, (∀ c ∈ blanks, isBlank c = true) ∧ a = blanks ++ skipBlanks a :=
  ⟨a.takeWhile isBlank, fun _ => List.mem_takeWhile_imp, List.takeWhile_append_dropWhile.symm⟩

theorem exists_trimRight (a : List Char) :
    ∃ blanks, (∀ c ∈ blanks, isBlank c = true) ∧ a = trimRight a ++ blanks := by
  obtain ⟨blanks, hblank, ha⟩ := exists_skipBlanks a.reverse
  refine ⟨blanks.reverse, fun c hc => hblank c (List.mem_reverse.mp hc), ?_⟩
  have hreverse := congrArg List.reverse ha
  rwa [List.reverse_reverse, List.reverse_append] at hreverse

/-- Only blanks are trimmed off. -/
theorem exists_trim (a : List Char) :
    ∃ lead tail, (∀ c ∈ lead, isBlank c = true) ∧ (∀ c ∈ tail, isBlank c = true) ∧
      a = lead ++ (trim a ++ tail) := by
  obtain ⟨lead, hlead, ha⟩ := exists_skipBlanks a
  obtain ⟨tail, htail, hskip⟩ := exists_trimRight (skipBlanks a)
  exact ⟨lead, tail, hlead, htail, by rw [trim, ← hskip, ← ha]⟩

theorem infix_trim (a : List Char) : trim a <:+: a := by
  obtain ⟨lead, tail, -, -, ha⟩ := exists_trim a
  exact ⟨lead, tail, by rw [List.append_assoc, ← ha]⟩

/-- A trimmed text stays as it is. -/
theorem trim_trim (a : List Char) : trim (trim a) = trim a := by
  refine trim_eq_self (fun c hc => ?_) fun c hc => ?_
  · obtain ⟨rest, hprefix⟩ := trimRight_prefix (skipBlanks a)
    refine isBlank_of_head_skipBlanks (a := a) ?_
    rw [← hprefix, List.head?_append, show (trimRight (skipBlanks a)).head? = some c from hc]
    rfl
  · rw [trim, trimRight, List.getLast?_reverse] at hc
    exact isBlank_of_head_skipBlanks hc

/-! ### Lines -/

theorem splitAt_ne_nil (isCut : Char → Bool) (text : List Char) : splitAt isCut text ≠ [] := by
  induction text with
  | nil => simp [splitAt]
  | cons c cs ih =>
      rw [splitAt]
      split
      · simp
      · split <;> simp

/-- A text is cut at each cut on its own. -/
theorem splitAt_append {isCut : Char → Bool} (a b : List Char) {c : Char} (hc : isCut c = true) :
    splitAt isCut (a ++ c :: b) = splitAt isCut a ++ splitAt isCut b := by
  induction a with
  | nil =>
      show splitAt isCut (c :: b) = [] :: splitAt isCut b
      rw [splitAt]
      split
      · rename_i hnil
        exact absurd hnil (splitAt_ne_nil isCut b)
      · rename_i hpieces
        rw [hpieces, if_pos hc]
  | cons d ds ih =>
      rw [List.cons_append, splitAt, splitAt, ih]
      cases hds : splitAt isCut ds with
      | nil => exact absurd hds (splitAt_ne_nil isCut ds)
      | cons piece pieces =>
          simp only [List.cons_append]
          split <;> rfl

theorem splitAt_eq_singleton {isCut : Char → Bool} {a : List Char}
    (h : ∀ d ∈ a, isCut d = false) : splitAt isCut a = [a] := by
  induction a with
  | nil => rfl
  | cons d ds ih =>
      rw [splitAt, ih fun e he => h e (List.mem_cons_of_mem _ he)]
      simp [h d List.mem_cons_self]

/-- No cut is left in a piece. -/
theorem eq_false_of_mem_splitAt {isCut : Char → Bool} {text piece : List Char} {c : Char}
    (h : piece ∈ splitAt isCut text) (hc : c ∈ piece) : isCut c = false := by
  induction text generalizing piece with
  | nil =>
      rw [splitAt, List.mem_singleton] at h
      rw [h] at hc
      cases hc
  | cons d ds ih =>
      rw [splitAt] at h
      split at h
      · rename_i hnil
        exact absurd hnil (splitAt_ne_nil isCut ds)
      · rename_i first others hpieces
        rw [hpieces] at ih
        split at h
        · rcases List.mem_cons.mp h with rfl | h
          · cases hc
          · exact ih h hc
        · rename_i hcut
          rcases List.mem_cons.mp h with rfl | h
          · rcases List.mem_cons.mp hc with rfl | hc
            · exact Bool.eq_false_iff.mpr hcut
            · exact ih List.mem_cons_self hc
          · exact ih (List.mem_cons_of_mem first h) hc

/-- There is one piece more than there are cuts. -/
theorem length_splitAt (isCut : Char → Bool) (text : List Char) :
    (splitAt isCut text).length = text.countP isCut + 1 := by
  induction text with
  | nil => rfl
  | cons c cs ih =>
      rw [splitAt, List.countP_cons]
      split
      · rename_i hnil
        exact absurd hnil (splitAt_ne_nil isCut cs)
      · rename_i piece pieces hpieces
        rw [hpieces] at ih
        split <;> simp_all

theorem length_lines (text : List Char) : (lines text).length = text.count '\n' + 1 :=
  length_splitAt _ text

theorem lines_append (a b : List Char) : lines (a ++ '\n' :: b) = lines a ++ lines b :=
  splitAt_append a b rfl

theorem lines_append_newline {a b : List Char} (h : '\n' ∉ a) :
    lines (a ++ '\n' :: b) = a :: lines b := by
  have ha : splitAt (· == '\n') a = [a] := by
    refine splitAt_eq_singleton fun d hd => ?_
    rw [beq_eq_false_iff_ne]
    exact fun he => h (he ▸ hd)
  rw [lines, splitAt_append a b rfl, ha]
  rfl

/-- Rows of text, each with a newline after it. -/
def rowsText (rows : List String) : List Char :=
  rows.flatMap fun row => row.toList ++ ['\n']

theorem rowsText_cons (row : String) (rows : List String) :
    rowsText (row :: rows) = row.toList ++ '\n' :: rowsText rows := by
  simp [rowsText]

theorem rowsText_append (rows more : List String) :
    rowsText (rows ++ more) = rowsText rows ++ rowsText more := by
  simp [rowsText]

theorem rowsText_infix_of_mem {row : String} {rows : List String} (h : row ∈ rows) :
    rowsText [row] <:+: rowsText rows := by
  obtain ⟨before, after, rfl⟩ := List.append_of_mem h
  exact ⟨rowsText before, rowsText after, by simp [rowsText]⟩

/-- Rows without newlines in them are the first lines of a text. -/
theorem lines_rowsText_append {rows : List String} (h : ∀ row ∈ rows, '\n' ∉ row.toList)
    (rest : List Char) : lines (rowsText rows ++ rest) = rows.map String.toList ++ lines rest := by
  induction rows with
  | nil => rfl
  | cons row more ih =>
      rw [rowsText_cons, List.append_assoc, List.cons_append,
        lines_append_newline (h row List.mem_cons_self),
        ih fun r hr => h r (List.mem_cons_of_mem _ hr)]
      rfl

/-- Rows without newlines in them are the lines of their text. -/
theorem lines_rowsText {rows : List String} (h : ∀ row ∈ rows, '\n' ∉ row.toList) :
    lines (rowsText rows) = rows.map String.toList ++ [[]] := by
  have hlines := lines_rowsText_append h []
  rwa [List.append_nil] at hlines

/-! ### Joined texts -/

/-- A character in front of the first text is in front of all of them. -/
theorem intercalate_cons_first (separator : List Char) (c : Char) (first : List Char)
    (more : List (List Char)) :
    List.intercalate separator ((c :: first) :: more)
      = c :: List.intercalate separator (first :: more) := by
  cases more with
  | nil => rw [List.intercalate_singleton, List.intercalate_singleton]
  | cons second others =>
      rw [List.intercalate_cons_cons, List.intercalate_cons_cons, List.cons_append,
        List.cons_append]

/-- An empty text at the front leaves its separator. -/
theorem intercalate_nil_cons (c : Char) (first : List Char) (more : List (List Char)) :
    List.intercalate [c] ([] :: first :: more) = c :: List.intercalate [c] (first :: more) := by
  rw [List.intercalate_cons_cons]
  rfl

theorem toList_join_cons (separator first second : String) (rest : List String) :
    (join separator (first :: second :: rest)).toList
      = first.toList ++ separator.toList ++ (join separator (second :: rest)).toList := by
  simp [join, String.toList_append]

/-- Texts followed by a separator each, and a last text. -/
theorem toList_join_concat (separator : String) (texts : List String) (last : String) :
    (join separator (texts ++ [last])).toList
      = (texts.flatMap fun t => t.toList ++ separator.toList) ++ last.toList := by
  induction texts with
  | nil => rfl
  | cons first rest ih =>
      cases rest with
      | nil => simp [join, String.toList_append]
      | cons second more =>
          rw [List.cons_append, List.cons_append, toList_join_cons, ← List.cons_append, ih]
          simp

/-- The pieces of a text, joined again. -/
theorem toList_join_splitAt {separator : String} {cut : Char} (h : separator.toList = [cut])
    (text : List Char) :
    (join separator ((splitAt (· == cut) text).map String.ofList)).toList = text := by
  induction text with
  | nil => rfl
  | cons c cs ih =>
      rw [splitAt]
      cases hpieces : splitAt (· == cut) cs with
      | nil => exact absurd hpieces (splitAt_ne_nil _ cs)
      | cons piece pieces =>
          rw [hpieces] at ih
          by_cases hcut : (c == cut) = true
          · simp only [hcut, if_true, List.map_cons] at ih ⊢
            rw [toList_join_cons, h, ih, beq_iff_eq.mp hcut]
            rfl
          · simp only [hcut, Bool.false_eq_true, if_false]
            cases pieces with
            | nil =>
                simp only [List.map_cons, List.map_nil, join, String.toList_ofList] at ih ⊢
                rw [ih]
            | cons next others =>
                simp only [List.map_cons, toList_join_cons, String.toList_ofList,
                  List.cons_append] at ih ⊢
                rw [ih]

/-- The first texts, joined, are the beginning of all of them joined. -/
theorem toList_join_prefix (separator : String) {texts : List String} (hne : texts ≠ [])
    (more : List String) :
    (join separator texts).toList <+: (join separator (texts ++ more)).toList := by
  induction texts with
  | nil => exact absurd rfl hne
  | cons first rest ih =>
      cases rest with
      | nil =>
          cases more with
          | nil => exact List.prefix_refl _
          | cons second others =>
              rw [List.singleton_append, toList_join_cons, join, List.append_assoc]
              exact List.prefix_append _ _
      | cons second others =>
          rw [List.cons_append, List.cons_append, toList_join_cons, toList_join_cons,
            ← List.cons_append]
          exact (List.prefix_append_right_inj _).mpr (ih (List.cons_ne_nil _ _))

theorem all_join {p : Char → Bool} {separator : String} (hseparator : separator.toList.all p = true)
    {texts : List String} (h : ∀ t ∈ texts, t.toList.all p = true) :
    (join separator texts).toList.all p = true := by
  induction texts with
  | nil => rfl
  | cons first rest ih =>
      cases rest with
      | nil => exact h first List.mem_cons_self
      | cons second more =>
          rw [toList_join_cons, List.all_append, List.all_append, h first List.mem_cons_self,
            hseparator, ih fun t ht => h t (List.mem_cons_of_mem first ht)]
          rfl

/-- A character that is in none of the texts and not in the separator is not in them joined. -/
theorem notMem_join {c : Char} {separator : String} (hseparator : c ∉ separator.toList)
    {texts : List String} (h : ∀ t ∈ texts, c ∉ t.toList) : c ∉ (join separator texts).toList := by
  have hne : ∀ text : List Char, c ∉ text → text.all (· != c) = true := fun text htext =>
    List.all_eq_true.mpr fun d hd => bne_iff_ne.mpr fun he => htext (he ▸ hd)
  have hall := all_join (hne _ hseparator) fun t ht => hne _ (h t ht)
  exact fun hmem => absurd (List.all_eq_true.mp hall c hmem) (by simp)

end UseCases.Text
