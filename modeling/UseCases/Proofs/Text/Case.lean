/-
Lower case of characters outside ASCII.

The tables move a character to a letter, never to a control character or to punctuation: every
image of a shift is a code point of its own, and the smallest one is the letter `k` that
the Kelvin sign is an upper case of.
-/
import Mathlib.Tactic.Common
import UseCases.Text.Case

namespace UseCases.Text

/-- The images of a shift are code points, none of them below `bound`. -/
def Shift.above (bound : Nat) (s : Shift) : Bool :=
  let low := (s.run.first + s.offset).toNat
  let high := (s.run.last + s.offset).toNat
  0 ≤ s.run.first + s.offset && bound ≤ low &&
    (high < 0xd800 || (0xdfff < low && high < 0x110000))

theorem toNat_ofNat_of_above {bound n : Nat} {s : Shift} (h : s.above bound = true)
    (hn : s.run.covers n = true) : bound ≤ (Char.ofNat (n + s.offset).toNat).toNat := by
  simp only [Shift.above, Bool.and_eq_true, Bool.or_eq_true, decide_eq_true_eq] at h
  simp only [Run.covers, Bool.and_eq_true, decide_eq_true_eq] at hn
  have hvalid : Nat.isValidChar (n + s.offset).toNat := by
    unfold Nat.isValidChar
    omega
  have hvalue : (Char.ofNat (n + s.offset).toNat).toNat = (n + s.offset).toNat := by
    rw [Char.ofNat, dif_pos hvalid]
    rfl
  rw [hvalue]
  omega

theorem lowerShifts_above : lowerShifts.all (Shift.above 0x61) = true := by
  decide +kernel

/-- The lower case of a character outside ASCII is no control character and no punctuation. -/
theorem le_toNat_lower {c d : Char} (hc : 0x80 ≤ c.toNat) (hd : d ∈ lower c) : 0x61 ≤ d.toNat := by
  unfold lower caseImage at hd
  rw [if_neg (by omega)] at hd
  split at hd
  · rename_i s hs
    have hmem := List.mem_of_find?_eq_some hs
    simp only [lowerSequences, List.mem_singleton] at hmem
    subst hmem
    simp only [List.map_cons, List.map_nil, List.mem_cons, List.not_mem_nil, or_false] at hd
    rcases hd with rfl | rfl <;> decide
  · rw [List.mem_singleton.mp hd]
    unfold shifted
    split
    · rename_i s hs
      have habove := List.all_eq_true.mp lowerShifts_above s (List.mem_of_find?_eq_some hs)
      have hcovers : s.run.covers c.toNat = true :=
        List.find?_some (p := fun s : Shift => s.run.covers c.toNat) hs
      exact toNat_ofNat_of_above habove hcovers
    · omega

end UseCases.Text
