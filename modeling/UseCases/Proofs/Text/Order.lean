/-
Parts of a text, in their order.

A reader that takes several parts out of a text takes them from left to right and never goes back.
`InOrder` says so of the parts alone: each stands in what is left of the text after the one before
it.  It is kept by putting more text around, and by replacing a part with parts of its own, so the
parts that one reader finds can be read on by the next.
-/
import Mathlib.Data.List.Infix
import Mathlib.Tactic.Common

namespace UseCases.Text

/-- The parts stand in the text in this order, and none overlaps the next. -/
def InOrder : (parts : List (List Char)) → (text : List Char) → Prop
  | [], _ => True
  | part :: parts, text => ∃ gap rest, text = gap ++ (part ++ rest) ∧ InOrder parts rest

namespace InOrder

variable {parts more : List (List Char)} {part text rest : List Char}

theorem nil (text : List Char) : InOrder [] text := trivial

theorem cons (gap part : List Char) (h : InOrder parts rest) :
    InOrder (part :: parts) (gap ++ (part ++ rest)) :=
  ⟨gap, rest, rfl, h⟩

theorem singleton (part : List Char) : InOrder [part] part :=
  ⟨[], [], by simp, trivial⟩

theorem prepend (before : List Char) (h : InOrder parts text) : InOrder parts (before ++ text) := by
  cases parts with
  | nil => trivial
  | cons part parts =>
      obtain ⟨gap, rest, rfl, hrest⟩ := h
      exact ⟨before ++ gap, rest, (List.append_assoc _ _ _).symm, hrest⟩

/-- **Parts of two texts are parts of the texts put together.** -/
theorem append (h : InOrder parts text) (hmore : InOrder more rest) :
    InOrder (parts ++ more) (text ++ rest) := by
  induction parts generalizing text with
  | nil => exact hmore.prepend text
  | cons part parts ih =>
      obtain ⟨gap, tail, rfl, htail⟩ := h
      rw [List.append_assoc, List.append_assoc]
      exact cons gap part (ih htail)

theorem within (h : InOrder parts text) (hwithin : text <:+: rest) : InOrder parts rest := by
  obtain ⟨before, after, rfl⟩ := hwithin
  have happend := (h.prepend before).append (nil after)
  rwa [List.append_nil] at happend

/-- Some of the parts stand in the text in their order too. -/
theorem sublist {fewer : List (List Char)} (h : InOrder parts text) (hfewer : fewer.Sublist parts) :
    InOrder fewer text := by
  induction hfewer generalizing text with
  | slnil => trivial
  | cons part _ ih =>
      obtain ⟨gap, rest, rfl, hrest⟩ := h
      exact ((ih hrest).prepend part).prepend gap
  | cons_cons part _ ih =>
      obtain ⟨gap, rest, rfl, hrest⟩ := h
      exact cons gap part (ih hrest)

theorem infix_of_mem (h : InOrder parts text) (hmem : part ∈ parts) : part <:+: text := by
  induction parts generalizing text with
  | nil => cases hmem
  | cons first parts ih =>
      obtain ⟨gap, rest, rfl, hrest⟩ := h
      rcases List.mem_cons.mp hmem with rfl | hmem
      · exact ⟨gap, rest, List.append_assoc _ _ _⟩
      · exact (ih hrest hmem).trans ⟨gap ++ first, [], by simp⟩

/-- **Parts of the parts are parts of the text.** -/
theorem flatMap {f : List Char → List (List Char)} (h : InOrder parts text)
    (hf : ∀ part ∈ parts, InOrder (f part) part) : InOrder (parts.flatMap f) text := by
  induction parts generalizing text with
  | nil => trivial
  | cons part parts ih =>
      obtain ⟨gap, rest, rfl, hrest⟩ := h
      have hlater := ih hrest fun p hp => hf p (List.mem_cons_of_mem part hp)
      exact ((hf part List.mem_cons_self).append hlater).prepend gap

end InOrder

end UseCases.Text
