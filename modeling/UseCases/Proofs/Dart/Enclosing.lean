/-
Brackets that are closed.

The bracket that a text starts inside is closed at the first place where more brackets of its kind
have been closed than opened.  Whether there is such a place is a matter of counting, `ClosesIn`,
and the reader that looks for the matching bracket finds one exactly then.  Its depth is the
number of brackets that are still open, so the counts of a beginning of the text are compared with
the depth it starts at.
-/
import UseCases.Proofs.Dart.Nesting

namespace UseCases.Dart

open Text

variable {opening closing : Char} {l : Literal} {text : List Char}

/-! ### One character -/

theorem enclosedFrom?_opening (hne : opening ≠ closing) (h : l.isCode opening = true) (depth : Nat)
    (cs : List Char) :
    enclosedFrom? opening closing l depth (opening :: cs)
      = (enclosedFrom? opening closing .outside (depth + 1) cs).map (Enclosed.prepend [opening]) := by
  have hclosing : (opening == closing) = false := beq_eq_false_iff_ne.mpr hne
  rw [enclosedFrom?, if_neg (by simp [hclosing])]
  simp only [h, Bool.true_and, beq_self_eq_true, if_true, next_of_isCode h]
  rfl

/-- The bracket that closes the one that the text started in. -/
theorem enclosedFrom?_last (h : l.isCode closing = true) (cs : List Char) :
    enclosedFrom? opening closing l 0 (closing :: cs) = some ⟨[], cs⟩ := by
  rw [enclosedFrom?, if_pos (by simp [h])]

theorem enclosedFrom?_closing (hne : opening ≠ closing) (h : l.isCode closing = true) (depth : Nat)
    (cs : List Char) :
    enclosedFrom? opening closing l (depth + 1) (closing :: cs)
      = (enclosedFrom? opening closing .outside depth cs).map (Enclosed.prepend [closing]) := by
  have hopening : (closing == opening) = false := beq_eq_false_iff_ne.mpr hne.symm
  rw [enclosedFrom?, if_neg (by simp)]
  simp only [h, hopening, Bool.true_and, Bool.false_eq_true, if_false, beq_self_eq_true, if_true,
    next_of_isCode h, Nat.add_sub_cancel]
  rfl

theorem enclosedFrom?_other {c : Char} (h : ¬(l.isCode c = true ∧ (c = opening ∨ c = closing)))
    (depth : Nat) (cs : List Char) :
    enclosedFrom? opening closing l depth (c :: cs)
      = (enclosedFrom? opening closing (l.next c) depth cs).map (Enclosed.prepend [c]) := by
  have hopening : (l.isCode c && c == opening) = false := by
    simpa using fun hcode hc => h ⟨hcode, Or.inl hc⟩
  have hclosing : (l.isCode c && c == closing) = false := by
    simpa using fun hcode hc => h ⟨hcode, Or.inr hc⟩
  rw [enclosedFrom?, if_neg (by simp [hclosing])]
  simp only [hopening, hclosing, Bool.false_eq_true, if_false]
  rfl

/-! ### Counting -/

/-- How often the character stands as code in a text that is read from `l` on. -/
def codeCount (c : Char) (l : Literal) (text : List Char) : Nat :=
  (markCode l text).count (c, true)

theorem codeCount_nil (c : Char) (l : Literal) : codeCount c l [] = 0 := rfl

theorem codeCount_cons (c : Char) (l : Literal) (d : Char) (ds : List Char) :
    codeCount c l (d :: ds)
      = (if l.isCode d = true ∧ d = c then 1 else 0) + codeCount c (l.next d) ds := by
  rw [codeCount, markCode, List.count_cons, Nat.add_comm, codeCount]
  simp [and_comm]

theorem codeCount_append (c : Char) (l : Literal) (a b : List Char) :
    codeCount c l (a ++ b) = codeCount c l a + codeCount c (l.after a) b := by
  induction a generalizing l with
  | nil => simp [codeCount_nil, Literal.after]
  | cons d ds ih =>
      rw [List.cons_append, codeCount_cons, codeCount_cons, ih, Nat.add_assoc]
      rfl

theorem codeCount_of_not_mem {c : Char} (h : c ∉ text) (l : Literal) : codeCount c l text = 0 := by
  induction text generalizing l with
  | nil => rfl
  | cons d ds ih =>
      obtain ⟨hd, hds⟩ := not_or.mp (mt List.mem_cons.mpr h)
      rw [codeCount_cons, ih hds, if_neg fun hcode => hd hcode.2.symm]

/-! ### Closed brackets -/

/-- The bracket just before the text is closed in it: somewhere more brackets have been closed
than opened. -/
def ClosesIn (opening closing : Char) (text : List Char) : Prop :=
  ∃ before, before <+: text ∧
    codeCount opening .outside before < codeCount closing .outside before

/-- Text without closing brackets closes nothing. -/
theorem closesIn_append {more : List Char} (h : closing ∉ more) :
    ClosesIn opening closing (text ++ more) ↔ ClosesIn opening closing text := by
  refine ⟨?_, fun ⟨before, hbefore, hcount⟩ =>
    ⟨before, hbefore.trans (List.prefix_append text more), hcount⟩⟩
  rintro ⟨before, hbefore, hcount⟩
  rcases List.prefix_or_prefix_of_prefix hbefore (List.prefix_append text more) with hshort | hlong
  · exact ⟨before, hshort, hcount⟩
  · obtain ⟨tail, rfl⟩ := hlong
    have htail : closing ∉ tail := fun hmem =>
      h (((List.prefix_append_right_inj text).mp hbefore).subset hmem)
    rw [codeCount_append, codeCount_append, codeCount_of_not_mem htail] at hcount
    exact ⟨text, List.prefix_refl text, by omega⟩

theorem exists_prefix_cons {c : Char} {cs : List Char} {p : List Char → Prop} (hnil : ¬p []) :
    (∃ before, before <+: c :: cs ∧ p before) ↔ ∃ before, before <+: cs ∧ p (c :: before) := by
  refine ⟨?_, fun ⟨before, hbefore, hp⟩ =>
    ⟨c :: before, List.cons_prefix_cons.mpr ⟨rfl, hbefore⟩, hp⟩⟩
  rintro ⟨before, hbefore, hp⟩
  rcases List.prefix_cons_iff.mp hbefore with rfl | ⟨tail, rfl, htail⟩
  · exact absurd hp hnil
  · exact ⟨tail, htail, hp⟩

/-- **The matching bracket is found if and only if there is one**, `depth` brackets being open. -/
theorem enclosedFrom?_isSome_iff (hne : opening ≠ closing) (depth : Nat) :
    (enclosedFrom? opening closing l depth text).isSome = true ↔
      ∃ before, before <+: text ∧
        depth + codeCount opening l before < codeCount closing l before := by
  induction text generalizing l depth with
  | nil =>
      refine iff_of_false (by simp [enclosedFrom?]) ?_
      rintro ⟨before, hbefore, hcount⟩
      rw [List.prefix_nil.mp hbefore, codeCount_nil, codeCount_nil] at hcount
      omega
  | cons c cs ih =>
      rw [exists_prefix_cons (by simp [codeCount_nil])]
      simp only [codeCount_cons]
      by_cases hclose : l.isCode c = true ∧ c = closing
      · obtain ⟨hcode, rfl⟩ := hclose
        rw [if_neg fun h => hne h.2.symm, if_pos ⟨hcode, rfl⟩, next_of_isCode hcode]
        cases depth with
        | zero =>
            rw [enclosedFrom?_last hcode]
            exact iff_of_true rfl ⟨[], List.nil_prefix, by simp [codeCount_nil]⟩
        | succ depth =>
            rw [enclosedFrom?_closing hne hcode, Option.isSome_map, ih]
            exact exists_congr fun before => and_congr_right fun _ => by omega
      · rw [if_neg hclose]
        by_cases hopen : l.isCode c = true ∧ c = opening
        · obtain ⟨hcode, rfl⟩ := hopen
          rw [if_pos ⟨hcode, rfl⟩, enclosedFrom?_opening hne hcode, Option.isSome_map, ih,
            next_of_isCode hcode]
          exact exists_congr fun before => and_congr_right fun _ => by omega
        · have hother : ¬(l.isCode c = true ∧ (c = opening ∨ c = closing)) := by
            rintro ⟨hcode, hc | hc⟩
            · exact hopen ⟨hcode, hc⟩
            · exact hclose ⟨hcode, hc⟩
          rw [if_neg hopen, enclosedFrom?_other hother, Option.isSome_map, ih]
          exact exists_congr fun before => and_congr_right fun _ => by omega

theorem enclosed?_isSome_iff (hne : opening ≠ closing) :
    (enclosed? opening closing text).isSome = true ↔ ClosesIn opening closing text := by
  rw [enclosed?, enclosedFrom?_isSome_iff hne, ClosesIn]
  simp only [Nat.zero_add]

/-! ### What is enclosed -/

theorem enclosedFrom?_split {depth : Nat} {e : Enclosed}
    (h : enclosedFrom? opening closing l depth text = some e) :
    text = e.inside ++ closing :: e.after := by
  induction text generalizing l depth e with
  | nil => cases h
  | cons c cs ih =>
      rw [enclosedFrom?] at h
      split at h
      · rename_i hclose
        cases h
        simp only [Bool.and_eq_true, beq_iff_eq] at hclose
        rw [hclose.1.2]
        rfl
      · obtain ⟨later, hlater, rfl⟩ := Option.map_eq_some_iff.mp h
        rw [ih hlater]
        rfl

/-- The enclosed text, the bracket and what follows it make up the text. -/
theorem enclosed?_split {e : Enclosed} (h : enclosed? opening closing text = some e) :
    text = e.inside ++ closing :: e.after :=
  enclosedFrom?_split h

end UseCases.Dart
