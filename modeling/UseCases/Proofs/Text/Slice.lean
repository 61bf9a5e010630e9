/-
Slices of a text at byte offsets.

The readers of this library take lists apart, so no position of theirs can be wrong.  A reader that
keeps byte offsets instead can be: an offset may lie behind the end of the text or inside the
encoding of a character, a slice may end before it starts, and a difference of offsets may be
negative.  Here these operations are given with their faults, to say of such a reader that it has
none.

A slice is taken exactly when its ends are in order and are boundaries of characters.  That an
offset is one is never computed from bytes: it is the length of a text that the whole text starts
with, and every lemma below is about a text that is written down as an append.
-/
import Mathlib.Data.String.Basic
import UseCases.Text.Utf8

namespace UseCases.Text

/-- What can be wrong with a use of offsets. -/
inductive Fault where
  /-- A slice ends before it starts. -/
  | order
  /-- An offset is no boundary of characters in its text. -/
  | boundary
  /-- A difference is negative. -/
  | underflow
deriving Repr, DecidableEq

theorem ok_bind {α β : Type} (a : α) (next : α → Except Fault β) :
    (Except.ok a >>= next) = next a := rfl

/-- Where a computation ends without a fault, none of its steps has one. -/
theorem bind_eq_ok {α β : Type} {first : Except Fault α} {next : α → Except Fault β} {b : β} :
    (first >>= next) = .ok b ↔ ∃ a, first = .ok a ∧ next a = .ok b := by
  cases first with
  | error fault =>
      refine iff_of_false (fun h => by cases h) ?_
      rintro ⟨a, ha, -⟩
      cases ha
  | ok a =>
      refine ⟨fun h => ⟨a, rfl, h⟩, ?_⟩
      rintro ⟨a', ha, h⟩
      cases ha
      exact h

variable {text front back rest part : List Char} {offset start stop : Nat}

/-! ### Sizes -/

theorem utf8Length_append (a b : List Char) : utf8Length (a ++ b) = utf8Length a + utf8Length b := by
  induction a with
  | nil => exact (Nat.zero_add _).symm
  | cons c cs ih => rw [List.cons_append, utf8Length, utf8Length, ih, Nat.add_assoc]

theorem utf8Length_mono {a b : List Char} (h : a <+: b) : utf8Length a ≤ utf8Length b := by
  obtain ⟨rest, rfl⟩ := h
  rw [utf8Length_append]
  exact Nat.le_add_right _ _

theorem utf8Length_singleton (c : Char) : utf8Length [c] = c.utf8Size := rfl

/-- Only the empty text has no bytes. -/
theorem utf8Length_eq_zero : utf8Length text = 0 ↔ text = [] := by
  cases text with
  | nil => exact iff_of_true rfl rfl
  | cons c cs =>
      have hpositive := c.utf8Size_pos
      exact iff_of_false (by rw [utf8Length]; omega) (List.cons_ne_nil c cs)

/-- The size of a text is that of its string. -/
theorem utf8Length_eq (text : List Char) : utf8Length text = (String.ofList text).utf8ByteSize := by
  rw [String.utf8ByteSize_ofList]
  induction text with
  | nil => rfl
  | cons c cs ih => rw [utf8Length, ih, String.utf8Len_cons, Nat.add_comm]

/-! ### Boundaries -/

/-- The offset is where a beginning of the text ends. -/
def IsBoundary (text : List Char) (offset : Nat) : Prop :=
  ∃ front back, text = front ++ back ∧ offset = utf8Length front

theorem isBoundary_append (front back : List Char) :
    IsBoundary (front ++ back) (utf8Length front) :=
  ⟨front, back, rfl, rfl⟩

theorem IsBoundary.le (h : IsBoundary text offset) : offset ≤ utf8Length text := by
  obtain ⟨front, back, rfl, rfl⟩ := h
  exact utf8Length_mono (List.prefix_append front back)

/-- A character of the text starts at the offset. -/
def IsInside (text : List Char) (offset : Nat) : Prop :=
  IsBoundary text offset ∧ offset < utf8Length text

theorem isInside_append (front : List Char) (c : Char) (back : List Char) :
    IsInside (front ++ c :: back) (utf8Length front) := by
  have hpositive := c.utf8Size_pos
  refine ⟨isBoundary_append front (c :: back), ?_⟩
  rw [utf8Length_append, utf8Length]
  omega

/-- The boundaries of a text are the positions in its string that are valid in UTF-8. -/
theorem isBoundary_iff_isValid :
    IsBoundary text offset ↔ (String.Pos.Raw.mk offset).IsValid (String.ofList text) := by
  rw [String.Pos.Raw.isValid_iff_exists_append]
  constructor
  · rintro ⟨front, back, rfl, rfl⟩
    refine ⟨String.ofList front, String.ofList back, String.ofList_append, ?_⟩
    rw [utf8Length_eq]
    rfl
  · rintro ⟨first, second, htext, hoffset⟩
    refine ⟨first.toList, second.toList, ?_, ?_⟩
    · rw [← String.toList_append, ← htext, String.toList_ofList]
    · rw [utf8Length_eq, String.ofList_toList]
      exact congrArg String.Pos.Raw.byteIdx hoffset

/-- Of two beginnings of a text the shorter one is a beginning of the longer one. -/
theorem prefix_of_utf8Length_le (hfront : front <+: text) (hpart : part <+: text)
    (hle : utf8Length front ≤ utf8Length part) : front <+: part := by
  rcases List.prefix_or_prefix_of_prefix hfront hpart with hshort | ⟨tail, rfl⟩
  · exact hshort
  · rw [utf8Length_append] at hle
    obtain rfl : tail = [] := utf8Length_eq_zero.mp (by omega)
    simp

/-! ### Slices -/

/-- The text in two parts at an offset. -/
def halves? : (offset : Nat) → (text : List Char) → Option (List Char × List Char)
  | 0, text => some ([], text)
  | _ + 1, [] => none
  | offset + 1, c :: cs =>
    if c.utf8Size ≤ offset + 1 then
      (halves? (offset + 1 - c.utf8Size) cs).map fun halves => (c :: halves.1, halves.2)
    else none

theorem halves?_append (front back : List Char) :
    halves? (utf8Length front) (front ++ back) = some (front, back) := by
  induction front with
  | nil => rw [utf8Length, halves?, List.nil_append]
  | cons c cs ih =>
      have hpositive := c.utf8Size_pos
      obtain ⟨n, hn⟩ : ∃ n, utf8Length (c :: cs) = n + 1 :=
        Nat.exists_eq_succ_of_ne_zero (mt utf8Length_eq_zero.mp (List.cons_ne_nil c cs))
      have hrest : n + 1 - c.utf8Size = utf8Length cs := by
        rw [← hn, utf8Length, Nat.add_sub_cancel_left]
      rw [hn, List.cons_append, halves?, if_pos (by rw [← hn, utf8Length]; omega), hrest, ih]
      rfl

theorem halves?_eq_some :
    halves? offset text = some (front, back) ↔ text = front ++ back ∧ offset = utf8Length front := by
  refine ⟨fun h => ?_, ?_⟩
  · induction text generalizing offset front with
    | nil =>
        cases offset with
        | zero => cases h; exact ⟨rfl, rfl⟩
        | succ n => cases h
    | cons c cs ih =>
        cases offset with
        | zero => cases h; exact ⟨rfl, rfl⟩
        | succ n =>
            rw [halves?] at h
            split at h
            · rename_i hfits
              obtain ⟨later, hlater, heq⟩ := Option.map_eq_some_iff.mp h
              cases heq
              obtain ⟨htext, hoffset⟩ := ih hlater
              exact ⟨by rw [htext]; rfl, by rw [utf8Length, ← hoffset]; omega⟩
            · cases h
  · rintro ⟨rfl, rfl⟩
    exact halves?_append front back

/-- A text is divided in one way at an offset. -/
theorem append_inj_of_utf8Length {front' back' : List Char} (h : front ++ back = front' ++ back')
    (hlength : utf8Length front = utf8Length front') : front = front' ∧ back = back' := by
  have hhalves := halves?_append front back
  rw [halves?_eq_some.mpr ⟨h, hlength⟩] at hhalves
  obtain ⟨hfront, hback⟩ := Prod.mk.inj (Option.some.inj hhalves)
  exact ⟨hfront.symm, hback.symm⟩

/-- The text between two offsets. -/
def slice (text : List Char) (start stop : Nat) : Except Fault (List Char) :=
  if stop < start then .error .order
  else
    match (halves? start text).bind fun halves => halves? (stop - start) halves.2 with
    | some (part, _) => .ok part
    | none => .error .boundary

/-- The text from an offset on. -/
def sliceFrom (text : List Char) (start : Nat) : Except Fault (List Char) :=
  slice text start (utf8Length text)

/-- The text up to an offset. -/
def sliceTo (text : List Char) (stop : Nat) : Except Fault (List Char) :=
  slice text 0 stop

theorem slice_append (front part back : List Char) :
    slice (front ++ (part ++ back)) (utf8Length front) (utf8Length front + utf8Length part)
      = .ok part := by
  rw [slice, if_neg (by omega), halves?_append, Nat.add_sub_cancel_left, Option.bind_some,
    halves?_append]

theorem slice_eq_ok :
    slice text start stop = .ok part ↔ ∃ front back, text = front ++ (part ++ back) ∧
      start = utf8Length front ∧ stop = utf8Length front + utf8Length part := by
  refine ⟨fun h => ?_, ?_⟩
  · rw [slice] at h
    split at h
    · cases h
    · rename_i horder
      split at h
      · rename_i back hhalves
        cases h
        obtain ⟨⟨front, tail⟩, hstart, hstop⟩ := Option.bind_eq_some_iff.mp hhalves
        obtain ⟨rfl, rfl⟩ := halves?_eq_some.mp hstart
        obtain ⟨htail, hlength⟩ := halves?_eq_some.mp hstop
        obtain rfl : tail = part ++ back := htail
        exact ⟨front, back, rfl, rfl, by omega⟩
      · cases h
  · rintro ⟨front, back, rfl, rfl, rfl⟩
    exact slice_append front part back

/-- **A slice is taken if and only if its ends are in order and on boundaries.** -/
theorem slice_isOk_iff :
    (∃ part, slice text start stop = .ok part) ↔
      start ≤ stop ∧ IsBoundary text start ∧ IsBoundary text stop := by
  simp only [slice_eq_ok]
  constructor
  · rintro ⟨part, front, back, rfl, rfl, rfl⟩
    refine ⟨Nat.le_add_right _ _, isBoundary_append _ _, front ++ part, back, ?_, ?_⟩
    · rw [List.append_assoc]
    · rw [utf8Length_append]
  · rintro ⟨hle, ⟨front, tail, htext, rfl⟩, longer, back, rfl, rfl⟩
    obtain ⟨part, rfl⟩ := prefix_of_utf8Length_le ⟨tail, htext.symm⟩
      (List.prefix_append longer back) hle
    exact ⟨part, front, back, List.append_assoc _ _ _, rfl, utf8Length_append _ _⟩

theorem sliceFrom_append (front back : List Char) :
    sliceFrom (front ++ back) (utf8Length front) = .ok back :=
  slice_eq_ok.mpr ⟨front, [], by rw [List.append_nil], rfl, utf8Length_append _ _⟩

theorem sliceTo_append (front back : List Char) :
    sliceTo (front ++ back) (utf8Length front) = .ok front :=
  slice_eq_ok.mpr ⟨[], back, rfl, rfl, (Nat.zero_add _).symm⟩

/-- The text between two characters, the first of which is one byte long. -/
theorem slice_between {c d : Char} (hsize : c.utf8Size = 1) (front inside after : List Char) :
    slice (front ++ c :: (inside ++ d :: after)) (utf8Length front + 1)
        (utf8Length front + (c.utf8Size + utf8Length inside)) = .ok inside := by
  refine slice_eq_ok.mpr ⟨front ++ [c], d :: after, by simp, ?_, ?_⟩
  · rw [utf8Length_append, utf8Length_singleton, hsize]
  · rw [utf8Length_append, utf8Length_singleton, Nat.add_assoc]

/-- The text behind a character of one byte. -/
theorem sliceFrom_succ {c : Char} (hsize : c.utf8Size = 1) (front after : List Char) :
    sliceFrom (front ++ c :: after) (utf8Length front + 1) = .ok after := by
  have hfront : utf8Length (front ++ [c]) = utf8Length front + 1 := by
    rw [utf8Length_append, utf8Length_singleton, hsize]
  rw [← hfront, List.append_cons]
  exact sliceFrom_append (front ++ [c]) after

/-! ### Arithmetic -/

/-- A difference, which may not be negative. -/
def checkedSub (a b : Nat) : Except Fault Nat :=
  if b ≤ a then .ok (a - b) else .error .underflow

theorem checkedSub_add (a b : Nat) : checkedSub (a + b) b = .ok a := by
  rw [checkedSub, if_pos (Nat.le_add_left b a), Nat.add_sub_cancel]

/-- Where a match at the start of the text ends that leaves `rest` of it. -/
def matchEnd (text rest : List Char) : Nat :=
  utf8Length text - utf8Length rest

theorem matchEnd_append (front rest : List Char) :
    matchEnd (front ++ rest) rest = utf8Length front := by
  rw [matchEnd, utf8Length_append, Nat.add_sub_cancel]

/-- What a match leaves is the slice from its end on. -/
theorem sliceFrom_matchEnd (h : rest <:+ text) : sliceFrom text (matchEnd text rest) = .ok rest := by
  obtain ⟨front, rfl⟩ := h
  rw [matchEnd_append]
  exact sliceFrom_append front rest

end UseCases.Text
