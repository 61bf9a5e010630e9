/-
The pieces of a text.

A text may be cut at its first separator at depth zero, what follows the separator be cut again, and
so on until there is no separator left.  `CutsInto` says what that leaves, by the offsets at which
separators are found.  The reader of pieces gets there in one pass: where it cuts it stands at the
top, whatever the separator is, and it goes on at the top, so it reads the rest like a text of its
own.  For the same reason an entry is not cut again: it is a piece without the white space around
it.

Where the reader stands after a text decides whether a separator there would be cut at.  If it
would, the entries of the text and of what follows the separator are the entries of the whole; if
not, the last piece runs on into what follows, and there is one entry too few.
-/
import UseCases.Proofs.Dart.Offset

namespace UseCases.Dart

open Text

variable {separator c : Char} {p : Place} {a b text : List Char}

/-! ### The place of a reader that cuts -/

namespace Place

/-- The place after one more character, for a reader that stands at the top again behind a cut. -/
def cutting (separator : Char) (p : Place) (c : Char) : Place :=
  if p.isTop c && c == separator then .top else p.next c

/-- Where a text leaves a reader that cuts at the separator. -/
def afterCutting (separator : Char) (p : Place) (text : List Char) : Place :=
  text.foldl (cutting separator) p

theorem afterCutting_cut (h : (p.isTop c && c == separator) = true) (cs : List Char) :
    p.afterCutting separator (c :: cs) = Place.top.afterCutting separator cs := by
  rw [afterCutting, List.foldl_cons, cutting, if_pos h]
  rfl

theorem afterCutting_skip (h : ¬(p.isTop c && c == separator) = true) (cs : List Char) :
    p.afterCutting separator (c :: cs) = (p.next c).afterCutting separator cs := by
  rw [afterCutting, List.foldl_cons, cutting, if_neg h]
  rfl

/-- A separator that is neither a bracket nor a quote leaves every reader at the top. -/
theorem afterCutting_eq_after (hflat : isFlat separator = true) (p : Place) (text : List Char) :
    p.afterCutting separator text = p.after text := by
  induction text generalizing p with
  | nil => rfl
  | cons c cs ih =>
      by_cases hcut : (p.isTop c && c == separator) = true
      · obtain ⟨htop, hc⟩ := Bool.and_eq_true_iff.mp hcut
        rw [afterCutting_cut hcut, ih, eq_top_of_isTop htop, Place.after, Place.after,
          List.foldl_cons, next_top (beq_iff_eq.mp hc ▸ hflat)]
      · rw [afterCutting_skip hcut, ih]
        rfl

end Place

/-! ### Pieces of an append -/

/-- The last piece of a text and the first one of what follows it are one piece of the two.  Behind
its first cut a text is read from the top, so its last piece alone decides where it leaves its
reader. -/
theorem piecesFrom_append (separator : Char) (p : Place) (a b : List Char) :
    ∃ front last first more, piecesFrom separator p a = front ++ [last] ∧
      p.afterCutting separator a = (if front = [] then p else .top).after last ∧
      piecesFrom separator (p.afterCutting separator a) b = first :: more ∧
      piecesFrom separator p (a ++ b) = front ++ (last ++ first) :: more := by
  induction a generalizing p with
  | nil =>
      obtain ⟨first, -, more, hpieces, -⟩ := piecesFrom_split separator p b
      exact ⟨[], [], first, more, rfl, rfl, hpieces, hpieces⟩
  | cons c cs ih =>
      by_cases hcut : (p.isTop c && c == separator) = true
      · obtain ⟨front, last, first, more, hcs, hplace, hb, hwhole⟩ := ih .top
        refine ⟨[] :: front, last, first, more, ?_, ?_, ?_, ?_⟩
        · rw [piecesFrom, if_pos hcut, hcs]
          rfl
        · rw [Place.afterCutting_cut hcut, hplace, ite_self, if_neg (List.cons_ne_nil _ _)]
        · rw [Place.afterCutting_cut hcut, hb]
        · rw [List.cons_append, piecesFrom, if_pos hcut, hwhole]
          rfl
      · obtain ⟨front, last, first, more, hcs, hplace, hb, hwhole⟩ := ih (p.next c)
        rw [← Place.afterCutting_skip hcut] at hplace hb
        cases front with
        | nil =>
            refine ⟨[], c :: last, first, more, ?_, hplace, hb, ?_⟩
            · rw [piecesFrom, if_neg hcut, hcs]
              rfl
            · rw [List.cons_append, piecesFrom, if_neg hcut, hwhole]
              rfl
        | cons piece front =>
            refine ⟨(c :: piece) :: front, last, first, more, ?_, hplace, hb, ?_⟩
            · rw [piecesFrom, if_neg hcut, hcs]
              rfl
            · rw [List.cons_append, piecesFrom, if_neg hcut, hwhole]
              rfl

/-! ### Cutting again and again -/

/-- The text is cut into these pieces when it is cut at the first separator that is found, what
follows is cut in the same way, and a text in which none is found is left whole. -/
inductive CutsInto (separator : Char) : List Char → List (List Char) → Prop
  | whole {text : List Char} (h : findTopLevel? separator text = none) :
      CutsInto separator text [text]
  | cut {before after : List Char} {later : List (List Char)}
      (h : findTopLevel? separator (before ++ separator :: after) = some (utf8Length before))
      (hlater : CutsInto separator after later) :
      CutsInto separator (before ++ separator :: after) (before :: later)

theorem findTopLevel?_eq_none : findTopLevel? separator text = none ↔
    cut? (· == separator) text = none := by
  rw [findTopLevel?_eq, Option.map_eq_none_iff]

/-- A text has one beginning of each size. -/
theorem append_unique {x y : List Char} (h : a ++ x = b ++ y)
    (hsize : utf8Length a = utf8Length b) : a = b ∧ x = y := by
  have hhalves := halves?_append a x
  rw [h, hsize, halves?_append] at hhalves
  obtain ⟨rfl, rfl⟩ := Prod.mk.inj (Option.some.inj hhalves)
  exact ⟨rfl, rfl⟩

theorem cutsInto_pieces (separator : Char) (text : List Char) :
    CutsInto separator text (pieces separator text) := by
  induction hlength : text.length using Nat.strong_induction_on generalizing text with
  | _ n ih =>
      rw [pieces, piecesFrom_eq]
      cases hfound : findTopLevel? separator text with
      | none =>
          rw [show cutFrom? (· == separator) .top text = none from findTopLevel?_eq_none.mp hfound]
          exact .whole hfound
      | some index =>
          obtain ⟨cut, hcut, htext, rfl⟩ := findTopLevel?_split hfound
          rw [show cutFrom? (· == separator) .top text = some cut from hcut]
          have hshorter : cut.after.length < n := by
            rw [← hlength, htext]
            simp
            omega
          rw [htext] at hfound ⊢
          exact .cut hfound (ih cut.after.length hshorter cut.after rfl)

/-- **Repeated cuts leave the pieces**, and nothing else. -/
theorem cutsInto_iff {ps : List (List Char)} :
    CutsInto separator text ps ↔ ps = pieces separator text := by
  refine ⟨fun h => ?_, fun h => h ▸ cutsInto_pieces separator text⟩
  induction h with
  | whole h =>
      rw [pieces, piecesFrom_eq, show cutFrom? (· == separator) .top _ = none from
        findTopLevel?_eq_none.mp h]
  | cut h _ ih =>
      obtain ⟨cut, hcut, htext, hsize⟩ := findTopLevel?_split h
      obtain ⟨rfl, hafter⟩ := append_unique htext hsize
      rw [pieces, piecesFrom_eq, show cutFrom? (· == separator) .top _ = some cut from hcut, ih,
        (List.cons.inj hafter).2]

/-- The pieces with the separator between them are the text. -/
theorem intercalate_piecesFrom (separator : Char) (p : Place) (text : List Char) :
    List.intercalate [separator] (piecesFrom separator p text) = text := by
  induction text generalizing p with
  | nil => rfl
  | cons c cs ih =>
      by_cases hcut : (p.isTop c && c == separator) = true
      · obtain ⟨first, -, more, hpieces, -⟩ := piecesFrom_split separator .top cs
        rw [piecesFrom, if_pos hcut, hpieces, intercalate_nil_cons, ← hpieces, ih,
          beq_iff_eq.mp (Bool.and_eq_true_iff.mp hcut).2]
      · obtain ⟨first, -, more, hpieces, -⟩ := piecesFrom_split separator (p.next c) cs
        have hcs := ih (p.next c)
        rw [hpieces] at hcs
        rw [piecesFrom, if_neg hcut, hpieces]
        exact (intercalate_cons_first _ c first more).trans (congrArg (c :: ·) hcs)

/-! ### Entries of an append -/

/-- The entries that some pieces leave. -/
def entriesOf (ps : List (List Char)) : List (List Char) :=
  (ps.map trim).filter fun entry => !entry.isEmpty

theorem splitTopLevel_eq (separator : Char) (text : List Char) :
    splitTopLevel separator text = entriesOf (pieces separator text) := rfl

theorem entriesOf_append (ps qs : List (List Char)) :
    entriesOf (ps ++ qs) = entriesOf ps ++ entriesOf qs := by
  rw [entriesOf, entriesOf, entriesOf, List.map_append, List.filter_append]

theorem length_entriesOf_singleton_le (piece : List Char) : (entriesOf [piece]).length ≤ 1 :=
  (List.length_filter_le _ _).trans_eq rfl

/-- A piece that does not leave its reader at the top is no white space, so it leaves an entry. -/
theorem length_entriesOf_singleton {piece : List Char} (h : Place.top.after piece ≠ .top) :
    (entriesOf [piece]).length = 1 := by
  have hvisible : trim piece ≠ [] := by
    intro hempty
    obtain ⟨lead, tail, hlead, htail, hpiece⟩ := exists_trim piece
    refine h (Place.after_top fun c hc => isFlat_of_forall (p := isBlank) (by decide) ?_)
    rw [hpiece, hempty, List.nil_append, List.mem_append] at hc
    exact hc.elim (hlead c) (htail c)
  simp [entriesOf, hvisible]

/-- A character that is no bracket, no quote, no white space and not the separator. -/
theorem exists_ordinary (separator : Char) :
    ∃ c, c ≠ separator ∧ entriesOf (pieces separator [c]) = [[c]] := by
  by_cases hx : 'x' = separator
  · exact ⟨'y', by rw [← hx]; decide, by rw [← hx]; decide⟩
  · refine ⟨'x', hx, ?_⟩
    have hpieces : pieces separator ['x'] = [['x']] := by
      rw [pieces, piecesFrom, if_neg (by simp [hx])]
      rfl
    rw [hpieces]
    decide

/-- A separator that is not read at the top does not separate. -/
theorem piecesFrom_separator (hp : p ≠ .top) (hc : c ≠ separator) :
    piecesFrom separator p [separator, c] = [[separator, c]] := by
  have hfirst : ¬(p.isTop separator && separator == separator) = true := fun h =>
    hp (Place.eq_top_of_isTop (Bool.and_eq_true_iff.mp h).1)
  rw [piecesFrom, if_neg hfirst, piecesFrom, if_neg (by simp [hc])]
  rfl

/-- **The entries on both sides of a separator** are the entries of the whole exactly if the reader
of pieces stands at the top before the separator. -/
theorem splitTopLevel_append_iff (hquote : isQuote separator = false) :
    (∀ b, splitTopLevel separator (a ++ separator :: b)
      = splitTopLevel separator a ++ splitTopLevel separator b) ↔
    Place.top.afterCutting separator a = .top := by
  constructor
  · intro h
    by_contra hplace
    obtain ⟨c, hc, hentry⟩ := exists_ordinary separator
    obtain ⟨front, last, first, more, ha, hlast, hb, hwhole⟩ :=
      piecesFrom_append separator .top a [separator, c]
    rw [ite_self] at hlast
    rw [piecesFrom_separator hplace hc] at hb
    obtain ⟨rfl, rfl⟩ := List.cons.inj hb
    rw [hlast] at hplace
    -- The last piece of `a` is an entry of its own only where `a` stands alone.
    have hlength := congrArg List.length (h [c])
    rw [splitTopLevel_eq, splitTopLevel_eq, splitTopLevel_eq, hentry, pieces, hwhole, pieces, ha,
      entriesOf_append, entriesOf_append, List.length_append, List.length_append,
      List.length_append, length_entriesOf_singleton hplace, List.length_singleton] at hlength
    have hle := length_entriesOf_singleton_le (last ++ [separator, c])
    omega
  · intro hplace b
    have htop : Place.top.isTop separator = true :=
      Place.isTop_iff.mpr ⟨isCode_iff.mpr ⟨rfl, hquote⟩, rfl⟩
    obtain ⟨front, last, first, more, ha, -, hb, hwhole⟩ :=
      piecesFrom_append separator .top a (separator :: b)
    rw [hplace, piecesFrom, if_pos (by simpa using htop)] at hb
    obtain ⟨rfl, rfl⟩ := List.cons.inj hb
    rw [splitTopLevel_eq, splitTopLevel_eq, splitTopLevel_eq, pieces, hwhole, pieces, ha, pieces,
      ← entriesOf_append, List.append_nil, List.append_assoc, List.singleton_append]

/-! ### Entries -/

/--
**The entries are what repeated cuts leave.**  There is one list of pieces into which repeated cuts
at the first separator take the text; joined by the separator they are the text, and trimmed and
without the empty ones they are its entries.  An entry is trimmed, not empty, and its only entry.
For a separator that is no quote, the entries of the text and of anything behind one more separator
are the entries of the whole exactly if the text leaves the reader of pieces outside literals and
brackets.
-/
theorem splitTopLevel_cuts_repeatedly (separator : Char) (text : List Char) :
    (∃ ps, (∀ qs, CutsInto separator text qs ↔ qs = ps) ∧
      List.intercalate [separator] ps = text ∧
      splitTopLevel separator text = (ps.map trim).filter fun entry => !entry.isEmpty) ∧
    (∀ entry ∈ splitTopLevel separator text, trim entry = entry ∧ entry ≠ [] ∧
      splitTopLevel separator entry = [entry]) ∧
    (isQuote separator = false →
      ((∀ b, splitTopLevel separator (text ++ separator :: b)
        = splitTopLevel separator text ++ splitTopLevel separator b) ↔
      Place.top.afterCutting separator text = .top)) := by
  refine ⟨⟨pieces separator text, fun qs => cutsInto_iff,
    intercalate_piecesFrom separator .top text, rfl⟩, fun entry hentry => ?_,
    splitTopLevel_append_iff⟩
  obtain ⟨hne, htrim, huncut⟩ := entry_of_mem_splitTopLevel hentry
  exact ⟨htrim, hne, splitTopLevel_eq_singleton hne htrim huncut⟩

/-- A bracket as the separator: it is cut at where it closes nothing, and what follows such a text
is split on its own. -/
theorem splitTopLevel_at_greater_sign :
    isQuote '>' = false ∧
      splitTopLevel '>' ("a > (b > c) >".toList ++ '>' :: "'>', d".toList)
        = ["a".toList, "(b > c)".toList, "'>', d".toList] := by
  have hquote : isQuote '>' = false := by decide
  refine ⟨hquote, ?_⟩
  rw [((splitTopLevel_cuts_repeatedly '>' "a > (b > c) >".toList).2.2 hquote).mpr (by decide)]
  decide

end UseCases.Dart
