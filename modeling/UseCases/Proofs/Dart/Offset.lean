/-
Cutting a declaration by byte offsets.

A reader that keeps offsets goes over the characters of code of a text, each with its offset, and
takes slices between the offsets that it remembers.  Three of them are given here, for the first
character at depth zero, for the entries of a list and for the bracket that matches one, with every
slice and every decrement of a depth checked.

Each of them is an induction on the text that is still to be read, along with the reader that takes
the text apart: an offset is the size of what has been read, the depths agree, and what the one
slices out is what the other one has put together.  So no check fails, and the offsets that are found
are the sizes of what stands before a cut or a bracket.

Looking for a matching bracket is the one case that needs something of the text.  The depth is
decremented at each closing bracket, so the first bracket of the two must be an opening one; a reader
that starts at the opening bracket has one level to spare, and it stops where that level is used up.
-/
import UseCases.Proofs.Dart.Cut
import UseCases.Proofs.Dart.Enclosing
import UseCases.Proofs.Text.Slice

namespace UseCases.Dart

open Text

variable {text : List Char} {offset openAt index : Nat} {separator opening closing c : Char}
  {l : Literal} {p : Place}

/-! ### Characters of code -/

/-- The characters of code of a text that starts at `offset`, each with its own offset. -/
def codeCharsFrom (offset : Nat) (l : Literal) : List Char → List (Nat × Char)
  | [] => []
  | c :: cs =>
    let later := codeCharsFrom (offset + c.utf8Size) (l.next c) cs
    if l.isCode c then (offset, c) :: later else later

/-- The characters of a text outside string literals, with their offsets. -/
def codeChars (text : List Char) : List (Nat × Char) :=
  codeCharsFrom 0 .outside text

theorem codeCharsFrom_code (offset : Nat) (h : l.isCode c = true) (cs : List Char) :
    codeCharsFrom offset l (c :: cs)
      = (offset, c) :: codeCharsFrom (offset + c.utf8Size) .outside cs := by
  simp only [codeCharsFrom, if_pos h, next_of_isCode h]

theorem codeCharsFrom_text (offset : Nat) (h : l.isCode c = false) (cs : List Char) :
    codeCharsFrom offset l (c :: cs) = codeCharsFrom (offset + c.utf8Size) (l.next c) cs := by
  simp only [codeCharsFrom, h, Bool.false_eq_true, if_false]

/-- A character of code stands in the text at its offset. -/
theorem split_of_mem_codeCharsFrom (h : (index, c) ∈ codeCharsFrom offset l text) :
    ∃ before after, text = before ++ c :: after ∧ index = offset + utf8Length before := by
  induction text generalizing offset l with
  | nil => cases h
  | cons d ds ih =>
      have hlater : ∀ {l : Literal}, (index, c) ∈ codeCharsFrom (offset + d.utf8Size) l ds →
          ∃ before after, d :: ds = before ++ c :: after ∧ index = offset + utf8Length before := by
        intro l hmem
        obtain ⟨before, after, rfl, rfl⟩ := ih hmem
        exact ⟨d :: before, after, rfl, by rw [utf8Length, Nat.add_assoc]⟩
      by_cases hcode : l.isCode d = true
      · rw [codeCharsFrom_code offset hcode] at h
        rcases List.mem_cons.mp h with heq | h
        · cases heq
          exact ⟨[], ds, rfl, rfl⟩
        · exact hlater h
      · rw [codeCharsFrom_text offset (Bool.not_eq_true _ ▸ hcode)] at h
        exact hlater h

/-! ### The first character at depth zero -/

/-- The offset of the first `separator` at depth zero, `depth` brackets being open. -/
def findTopLevelFrom? (separator : Char) (depth : Nat) : List (Nat × Char) → Option Nat
  | [] => none
  | (offset, c) :: rest =>
    if c = separator ∧ depth = 0 then some offset
    else findTopLevelFrom? separator (Place.deepen depth c) rest

/-- The offset of the first `separator` outside literals and brackets. -/
def findTopLevel? (separator : Char) (text : List Char) : Option Nat :=
  findTopLevelFrom? separator 0 (codeChars text)

theorem Place.isTop_iff : p.isTop c = true ↔ p.literal.isCode c = true ∧ p.depth = 0 := by
  simp [Place.isTop]

theorem cutFrom?_self (h : p.isTop c = true) (cs : List Char) :
    cutFrom? (· == c) p (c :: cs) = some ⟨[], c, cs⟩ :=
  cutFrom?_hit h (beq_self_eq_true c)

theorem cutFrom?_other (h : ¬(p.isTop c = true ∧ c = separator)) (cs : List Char) :
    cutFrom? (· == separator) p (c :: cs)
      = (cutFrom? (· == separator) (p.next c) cs).map (Cut.prepend [c]) :=
  cutFrom?_skip (by simpa using h)

/-- **What is found is the size of what stands before the first cut.** -/
theorem findTopLevelFrom?_eq (separator : Char) (offset : Nat) (p : Place) (text : List Char) :
    findTopLevelFrom? separator p.depth (codeCharsFrom offset p.literal text)
      = (cutFrom? (· == separator) p text).map fun cut => offset + utf8Length cut.before := by
  induction text generalizing offset p with
  | nil => rfl
  | cons c cs ih =>
      have hlater : ∀ q : Place,
          findTopLevelFrom? separator q.depth (codeCharsFrom (offset + c.utf8Size) q.literal cs)
            = ((cutFrom? (· == separator) q cs).map (Cut.prepend [c])).map
                fun cut => offset + utf8Length cut.before := by
        intro q
        rw [ih, Option.map_map]
        exact congrArg (Option.map · _) (funext fun cut => Nat.add_assoc _ _ _)
      by_cases hcode : p.literal.isCode c = true
      · rw [codeCharsFrom_code offset hcode, findTopLevelFrom?]
        by_cases hcut : c = separator ∧ p.depth = 0
        · obtain ⟨rfl, hdepth⟩ := hcut
          rw [if_pos ⟨rfl, hdepth⟩, cutFrom?_self (Place.isTop_iff.mpr ⟨hcode, hdepth⟩)]
          rfl
        · have hother : ¬(p.isTop c = true ∧ c = separator) := fun h =>
            hcut ⟨h.2, (Place.isTop_iff.mp h.1).2⟩
          rw [if_neg hcut, cutFrom?_other hother, ← hlater, Place.next_code hcode]
      · have htext : p.literal.isCode c = false := Bool.not_eq_true _ ▸ hcode
        have hother : ¬(p.isTop c = true ∧ c = separator) := fun h =>
          hcode (Place.isTop_iff.mp h.1).1
        rw [codeCharsFrom_text offset htext, cutFrom?_other hother, ← hlater, Place.next_text htext]

theorem findTopLevel?_eq (separator : Char) (text : List Char) :
    findTopLevel? separator text
      = (cut? (· == separator) text).map fun cut => utf8Length cut.before := by
  rw [findTopLevel?, codeChars]
  refine (findTopLevelFrom?_eq separator 0 .top text).trans ?_
  simp only [Nat.zero_add, cut?]

/-- The text around the character that is found. -/
theorem findTopLevel?_split (h : findTopLevel? separator text = some index) :
    ∃ cut : Cut, cut? (· == separator) text = some cut ∧
      text = cut.before ++ separator :: cut.after ∧ index = utf8Length cut.before := by
  rw [findTopLevel?_eq] at h
  obtain ⟨cut, hcut, rfl⟩ := Option.map_eq_some_iff.mp h
  obtain ⟨htext, hmark, -⟩ := cutFrom?_split hcut
  rw [beq_iff_eq.mp hmark] at htext
  exact ⟨cut, hcut, htext, rfl⟩

theorem isInside_of_findTopLevel? (h : findTopLevel? separator text = some index) :
    IsInside text index := by
  obtain ⟨cut, -, rfl, rfl⟩ := findTopLevel?_split h
  exact isInside_append cut.before separator cut.after

/-! ### The first of two characters -/

/-- The smaller one of the offsets at which two characters were found, and the character. -/
def earlier? (a b : Char) : Option Nat → Option Nat → Option (Nat × Char)
  | some i, some j => if i ≤ j then some (i, a) else some (j, b)
  | some i, none => some (i, a)
  | none, found => found.map fun j => (j, b)

/-- **Looking for two characters one after the other finds the first cut at either.** -/
theorem earlier?_cutFrom? {a b : Char} (hne : a ≠ b) (offset : Nat) (p : Place) (text : List Char) :
    earlier? a b ((cutFrom? (· == a) p text).map fun cut => offset + utf8Length cut.before)
        ((cutFrom? (· == b) p text).map fun cut => offset + utf8Length cut.before)
      = (cutFrom? (fun c => c == a || c == b) p text).map
          fun cut => (offset + utf8Length cut.before, cut.mark) := by
  induction text generalizing offset p with
  | nil => rfl
  | cons c cs ih =>
      by_cases ha : p.isTop c = true ∧ c = a
      · obtain ⟨htop, rfl⟩ := ha
        rw [cutFrom?_self htop, cutFrom?_other fun h => hne h.2, cutFrom?_hit htop (by simp)]
        cases cutFrom? (· == b) (p.next c) cs with
        | none => rfl
        | some later => simp [earlier?, utf8Length]
      · rw [cutFrom?_other ha]
        by_cases hb : p.isTop c = true ∧ c = b
        · obtain ⟨htop, rfl⟩ := hb
          rw [cutFrom?_self htop, cutFrom?_hit htop (by simp)]
          cases cutFrom? (· == a) (p.next c) cs with
          | none => rfl
          | some later =>
              have hbehind : utf8Length (Cut.prepend [c] later).before ≠ 0 :=
                mt utf8Length_eq_zero.mp (List.cons_ne_nil c later.before)
              simp [earlier?, utf8Length, hbehind]
        · have hneither : (p.isTop c && (c == a || c == b)) = false := by
            simp only [Bool.and_eq_false_imp, Bool.or_eq_false_iff, beq_eq_false_iff_ne]
            exact fun htop => ⟨fun hc => ha ⟨htop, hc⟩, fun hc => hb ⟨htop, hc⟩⟩
          have hlater := ih (offset + c.utf8Size) (p.next c)
          simp only [Nat.add_assoc] at hlater
          rw [cutFrom?_other hb, cutFrom?_skip hneither, Option.map_map, Option.map_map,
            Option.map_map]
          exact hlater

/-! ### Entries -/

/-- The slices between the separators at depth zero, the first one from `start` on. -/
def slicesFrom (separator : Char) (text : List Char) (start depth : Nat) :
    List (Nat × Char) → Except Fault (List (List Char))
  | [] => do
    let last ← sliceFrom text start
    return [last]
  | (offset, c) :: rest =>
    if c = separator ∧ depth = 0 then do
      let piece ← slice text start offset
      let pieces ← slicesFrom separator text (offset + c.utf8Size) depth rest
      return piece :: pieces
    else slicesFrom separator text start (Place.deepen depth c) rest

/-- The entries of a text, sliced out of it. -/
def sliceTopLevel (separator : Char) (text : List Char) : Except Fault (List (List Char)) := do
  let slices ← slicesFrom separator text 0 0 (codeChars text)
  return (slices.map trim).filter fun entry => !entry.isEmpty

/-- **The slices are the pieces.**  Of the text, `front` has been sliced already and `middle` is read
already, so the first slice is `middle` with the first piece of the rest. -/
theorem slicesFrom_eq (separator : Char) (front middle rest : List Char) (p : Place) :
    ∃ piece pieces, piecesFrom separator p rest = piece :: pieces ∧
      slicesFrom separator (front ++ (middle ++ rest)) (utf8Length front) p.depth
          (codeCharsFrom (utf8Length front + utf8Length middle) p.literal rest)
        = .ok ((middle ++ piece) :: pieces) := by
  induction rest generalizing front middle p with
  | nil =>
      refine ⟨[], [], rfl, ?_⟩
      rw [codeCharsFrom, slicesFrom, List.append_nil, sliceFrom_append]
      rfl
  | cons c cs ih =>
      have htext : front ++ (middle ++ c :: cs) = front ++ ((middle ++ [c]) ++ cs) := by simp
      have hsize : utf8Length front + utf8Length middle + c.utf8Size
          = utf8Length front + utf8Length (middle ++ [c]) := by
        rw [utf8Length_append, utf8Length_singleton, Nat.add_assoc]
      by_cases hcut : (p.isTop c && c == separator) = true
      · obtain ⟨htop, hmark⟩ := Bool.and_eq_true_iff.mp hcut
        obtain ⟨hcode, hdepth⟩ := Place.isTop_iff.mp htop
        -- The separator goes to what has been sliced, and the next slice is still empty.
        obtain ⟨piece, pieces, hpieces, hslices⟩ := ih (front ++ (middle ++ [c])) [] .top
        refine ⟨[], piece :: pieces, by rw [piecesFrom, if_pos hcut, hpieces], ?_⟩
        have hsliced : front ++ (middle ++ [c]) ++ ([] ++ cs) = front ++ (middle ++ c :: cs) := by
          simp
        rw [hsliced, utf8Length_append, ← hsize, utf8Length, Nat.add_zero] at hslices
        rw [codeCharsFrom_code _ hcode, slicesFrom, if_pos ⟨beq_iff_eq.mp hmark, hdepth⟩,
          slice_append, ok_bind, hdepth, List.append_nil]
        exact bind_eq_ok.mpr ⟨_, hslices, rfl⟩
      · have hskip : (p.isTop c && c == separator) = false := Bool.not_eq_true _ ▸ hcut
        obtain ⟨piece, pieces, hpieces, hslices⟩ := ih front (middle ++ [c]) (p.next c)
        refine ⟨c :: piece, pieces, by rw [piecesFrom, if_neg hcut, hpieces], ?_⟩
        rw [← htext, ← hsize, List.append_assoc, List.singleton_append] at hslices
        rw [← hslices]
        by_cases hcode : p.literal.isCode c = true
        · have hstay : ¬(c = separator ∧ p.depth = 0) := fun h => hcut
            (Bool.and_eq_true_iff.mpr ⟨Place.isTop_iff.mpr ⟨hcode, h.2⟩, beq_iff_eq.mpr h.1⟩)
          rw [codeCharsFrom_code _ hcode, slicesFrom, if_neg hstay, Place.next_code hcode]
        · have hinside : p.literal.isCode c = false := Bool.not_eq_true _ ▸ hcode
          rw [codeCharsFrom_text _ hinside, Place.next_text hinside]

/-- **The entries that are sliced out are the entries of the text**, and no slice is at fault. -/
theorem sliceTopLevel_eq (separator : Char) (text : List Char) :
    sliceTopLevel separator text = .ok (splitTopLevel separator text) := by
  obtain ⟨piece, pieces, hpieces, hslices⟩ := slicesFrom_eq separator [] [] text .top
  have hall : slicesFrom separator text 0 0 (codeChars text) = .ok (piece :: pieces) := hslices
  rw [sliceTopLevel, hall, splitTopLevel, Dart.pieces, hpieces]
  rfl

/-! ### Matching brackets -/

/-- The offset of the bracket that leaves none open, `depth` of them being open.  A bracket that is
closed without having been opened is a fault. -/
def findMatchingFrom (opening closing : Char) (depth : Nat) :
    List (Nat × Char) → Except Fault (Option Nat)
  | [] => return none
  | (offset, c) :: rest =>
    if c = opening then findMatchingFrom opening closing (depth + 1) rest
    else if c = closing then do
      let depth ← checkedSub depth 1
      if depth = 0 then return some offset else findMatchingFrom opening closing depth rest
    else findMatchingFrom opening closing depth rest

/-- The offset of the bracket that matches the one at `openAt`. -/
def findMatching (text : List Char) (openAt : Nat) (opening closing : Char) :
    Except Fault (Option Nat) := do
  let rest ← sliceFrom text openAt
  let found ← findMatchingFrom opening closing 0 (codeChars rest)
  return found.map (openAt + ·)

/-- What is found is a closing bracket of code. -/
theorem mem_of_findMatchingFrom {depth : Nat} {chars : List (Nat × Char)}
    (h : findMatchingFrom opening closing depth chars = .ok (some index)) :
    (index, closing) ∈ chars := by
  induction chars generalizing depth with
  | nil => cases h
  | cons first rest ih =>
      obtain ⟨offset, c⟩ := first
      rw [findMatchingFrom] at h
      split at h
      · exact List.mem_cons_of_mem _ (ih h)
      · split at h
        · rename_i hclosing
          obtain ⟨left, -, h⟩ := bind_eq_ok.mp h
          split at h
          · cases h
            rw [hclosing]
            exact List.mem_cons_self
          · exact List.mem_cons_of_mem _ (ih h)
        · exact List.mem_cons_of_mem _ (ih h)

/-- **Whatever is found stands in the text**, at the offset it was looked for or behind it. -/
theorem findMatching_split (h : findMatching text openAt opening closing = .ok (some index)) :
    ∃ front before after, text = front ++ (before ++ closing :: after) ∧
      openAt = utf8Length front ∧ index = openAt + utf8Length before := by
  obtain ⟨rest, hslice, h⟩ := bind_eq_ok.mp h
  obtain ⟨found, hfound, h⟩ := bind_eq_ok.mp h
  obtain ⟨i, rfl, rfl⟩ := Option.map_eq_some_iff.mp (Except.ok.inj h)
  obtain ⟨front, back, rfl, rfl, -⟩ := slice_eq_ok.mp hslice
  obtain ⟨before, after, rfl, rfl⟩ := split_of_mem_codeCharsFrom (mem_of_findMatchingFrom hfound)
  exact ⟨front, before, after ++ back, by simp, rfl, by rw [Nat.zero_add]⟩

theorem isInside_of_findMatching (h : findMatching text openAt opening closing = .ok (some index)) :
    IsInside text index := by
  obtain ⟨front, before, after, rfl, rfl, rfl⟩ := findMatching_split h
  rw [← List.append_assoc, ← utf8Length_append]
  exact isInside_append (front ++ before) closing after

/-- **Inside a bracket the depth is never too low**: one more bracket is open than the reader that
takes the text apart counts. -/
theorem findMatchingFrom_eq (hne : opening ≠ closing) (offset : Nat) (l : Literal) (depth : Nat)
    (text : List Char) :
    findMatchingFrom opening closing (depth + 1) (codeCharsFrom offset l text)
      = .ok ((enclosedFrom? opening closing l depth text).map
          fun e => offset + utf8Length e.inside) := by
  induction text generalizing offset l depth with
  | nil => rfl
  | cons c cs ih =>
      have hlater : ∀ (l : Literal) (depth : Nat),
          findMatchingFrom opening closing (depth + 1) (codeCharsFrom (offset + c.utf8Size) l cs)
            = .ok (((enclosedFrom? opening closing l depth cs).map (Enclosed.prepend [c])).map
                fun e => offset + utf8Length e.inside) := by
        intro l depth
        rw [ih, Option.map_map]
        exact congrArg (fun f => Except.ok (Option.map f _)) (funext fun e => Nat.add_assoc _ _ _)
      by_cases hcode : l.isCode c = true
      · rw [codeCharsFrom_code offset hcode, findMatchingFrom]
        by_cases hopening : c = opening
        · obtain rfl := hopening
          rw [if_pos rfl, hlater, enclosedFrom?_opening hne hcode]
        · rw [if_neg hopening]
          by_cases hclosing : c = closing
          · obtain rfl := hclosing
            rw [if_pos rfl, checkedSub_add, ok_bind]
            cases depth with
            | zero =>
                rw [if_pos rfl, enclosedFrom?_last hcode]
                rfl
            | succ depth =>
                rw [if_neg (Nat.succ_ne_zero depth), hlater, enclosedFrom?_closing hne hcode]
          · have hother : ¬(l.isCode c = true ∧ (c = opening ∨ c = closing)) := fun h =>
              h.2.elim hopening hclosing
            rw [if_neg hclosing, hlater, enclosedFrom?_other hother, next_of_isCode hcode]
      · have hother : ¬(l.isCode c = true ∧ (c = opening ∨ c = closing)) := fun h => hcode h.1
        rw [codeCharsFrom_text offset (Bool.not_eq_true _ ▸ hcode), hlater,
          enclosedFrom?_other hother]

/-- **From an opening bracket on, the matching one is found without a fault.** -/
theorem findMatching_eq (hne : opening ≠ closing) (hquote : isQuote opening = false)
    (front after : List Char) :
    findMatching (front ++ opening :: after) (utf8Length front) opening closing
      = .ok ((enclosed? opening closing after).map
          fun e => utf8Length front + (opening.utf8Size + utf8Length e.inside)) := by
  have hcode : Literal.outside.isCode opening = true := isCode_iff.mpr ⟨rfl, hquote⟩
  have hfound : findMatchingFrom opening closing 0 (codeChars (opening :: after))
      = .ok ((enclosed? opening closing after).map
          fun e => opening.utf8Size + utf8Length e.inside) := by
    rw [codeChars, codeCharsFrom_code 0 hcode, findMatchingFrom, if_pos rfl]
    rw [Nat.zero_add opening.utf8Size]
    exact findMatchingFrom_eq hne opening.utf8Size .outside 0 after
  rw [findMatching, sliceFrom_append, ok_bind, hfound, ok_bind, Option.map_map]
  rfl

end UseCases.Dart
