/-
Snake case is local.

The conversion carries one fact from a character to the next one: whether the former is lower-case.
So what it does at a place depends on the two characters there and on nothing else, and the snake
case of two texts put together is that of each, with an underscore at the seam if one belongs there.

The words of a text end where a lower-case character stands before an upper-case one, and the snake
case of a text is its words in lower case with underscores between them.  Lower case may lengthen
a character, so what is added is counted against the text in lower case and not against the text
itself.  A text may hold underscores of its own; they are characters of its words.
-/
import Mathlib.Data.List.SplitBy
import UseCases.Proofs.Generation.Naming

namespace UseCases.Generation

open Text

/-- An upper-case character that follows a lower-case one. -/
def isHump (c d : Char) : Bool :=
  isLower c && isUpper d

/-- How many places of the text are between a lower-case character and an upper-case one. -/
def humps (text : List Char) : Nat :=
  (text.zip text.tail).countP fun pair => isHump pair.1 pair.2

/-- The words of a text, which end where an upper-case character follows a lower-case one. -/
def words (text : List Char) : List (List Char) :=
  text.splitBy fun c d => !isHump c d

/-- The text in lower case. -/
def lowerCase (text : List Char) : List Char :=
  text.flatMap lower

/-- What is put before a text that a lower-case character may stand before. -/
def gap (afterLower : Bool) (text : List Char) : List Char :=
  if afterLower && text.head?.any isUpper then ['_'] else []

variable {c : Char} {text word : List Char}

/-! ### Two texts put together -/

/-- What stands before a text matters to its first character alone. -/
theorem snakeFrom_eq (afterLower : Bool) (text : List Char) :
    snakeFrom afterLower text = gap afterLower text ++ snakeFrom false text := by
  cases text with
  | nil => simp [snakeFrom, gap]
  | cons c cs => simp [snakeFrom, gap, Bool.and_comm]

theorem snakeFrom_cons (c : Char) (text : List Char) :
    snakeFrom false (c :: text) = lower c ++ gap (isLower c) text ++ snakeFrom false text := by
  rw [snakeFrom, snakeFrom_eq (isLower c), Bool.and_false, if_neg Bool.false_ne_true,
    List.nil_append, List.append_assoc]

theorem foldl_isLower (text : List Char) :
    text.foldl (fun _ c => isLower c) false = text.getLast?.any isLower := by
  rcases List.eq_nil_or_concat' text with rfl | ⟨front, last, rfl⟩
  · rfl
  · simp

/-- Two texts meet in the last character of the one and the first character of the other. -/
theorem snakeFrom_append_eq_gap (a b : List Char) :
    snakeFrom false (a ++ b) =
      snakeFrom false a ++ gap (a.getLast?.any isLower) b ++ snakeFrom false b := by
  rw [snakeFrom_append, foldl_isLower, snakeFrom_eq (a.getLast?.any isLower), List.append_assoc]

/-! ### Words -/

/-- Nothing is put into a word. -/
theorem snakeFrom_word (h : word.IsChain fun c d => (!isHump c d) = true) :
    snakeFrom false word = lowerCase word := by
  induction word with
  | nil => rfl
  | cons c cs ih =>
      have hgap : gap (isLower c) cs = [] := by
        cases cs with
        | nil => simp [gap]
        | cons d ds =>
            have hhump : isHump c d = false := by simpa using (List.isChain_cons_cons.mp h).1
            simp only [gap, List.head?_cons, Option.any_some]
            exact if_neg (Bool.eq_false_iff.mp hhump)
      rw [snakeFrom_cons, hgap, ih h.tail, List.append_nil]
      rfl

/-- Words that end in lower case, each before one that starts in upper case, are kept apart. -/
theorem snakeFrom_flatten {ws : List (List Char)}
    (hwords : ∀ word ∈ ws, word.IsChain fun c d => (!isHump c d) = true)
    (hcuts : ws.IsChain fun a b => ∃ ha hb, (!isHump (a.getLast ha) (b.head hb)) = false) :
    snakeFrom false ws.flatten = ['_'].intercalate (ws.map lowerCase) := by
  induction ws with
  | nil => rfl
  | cons word ws ih =>
      have hword := snakeFrom_word (hwords word List.mem_cons_self)
      have hrest := ih (fun w hw => hwords w (List.mem_cons_of_mem word hw)) hcuts.tail
      cases ws with
      | nil => simpa using hword
      | cons next rest =>
          -- What follows the first word starts with the next one, which is not empty.
          obtain ⟨hend, hbegin, hhump⟩ := (List.isChain_cons_cons.mp hcuts).1
          have hgap : gap (word.getLast?.any isLower) (next :: rest).flatten = ['_'] := by
            have hcut : isLower (word.getLast hend) = true ∧ isUpper (next.head hbegin) = true := by
              simpa [isHump] using hhump
            simp [gap, List.getLast?_eq_some_getLast hend, List.head?_append,
              List.head?_eq_some_head hbegin, hcut]
          rw [List.flatten_cons, snakeFrom_append_eq_gap, hword, hgap, hrest]
          exact List.intercalate_cons_cons.symm

theorem flatten_words (text : List Char) : (words text).flatten = text :=
  List.flatten_splitBy _ text

/-- **The snake case of a text is its words in lower case with underscores between them.** -/
theorem snakeFrom_eq_intercalate (text : List Char) :
    snakeFrom false text = ['_'].intercalate ((words text).map lowerCase) := by
  have hcuts := List.isChain_getLast_head_splitBy (fun c d => !isHump c d) text
  calc snakeFrom false text
      = snakeFrom false (words text).flatten := by rw [flatten_words]
    _ = ['_'].intercalate ((words text).map lowerCase) :=
        snakeFrom_flatten (fun _ => List.isChain_of_mem_splitBy) hcuts

theorem flatten_map_lowerCase (ws : List (List Char)) :
    (ws.map lowerCase).flatten = lowerCase ws.flatten := by
  induction ws with
  | nil => rfl
  | cons word ws ih =>
      rw [List.map_cons, List.flatten_cons, ih, List.flatten_cons]
      exact List.flatMap_append.symm

/-! ### What is added -/

theorem humps_cons (c : Char) (text : List Char) :
    humps (c :: text) = (gap (isLower c) text).length + humps text := by
  cases text with
  | nil => simp [humps, gap]
  | cons d ds =>
      by_cases hhump : isHump c d = true
      · have hgap : gap (isLower c) (d :: ds) = ['_'] := if_pos hhump
        simp [humps, hhump, hgap, Nat.add_comm]
      · have hgap : gap (isLower c) (d :: ds) = [] := if_neg hhump
        simp [humps, hhump, hgap]

/-- An underscore is added for each upper-case character that follows a lower-case one. -/
theorem length_snakeFrom (text : List Char) :
    (snakeFrom false text).length = (lowerCase text).length + humps text := by
  induction text with
  | nil => rfl
  | cons c cs ih =>
      have hlower : lowerCase (c :: cs) = lower c ++ lowerCase cs := rfl
      rw [snakeFrom_cons, humps_cons, hlower]
      simp only [List.length_append, ih]
      omega

/-- The snake case of two characters may have four: an underscore is added, and one of the two
becomes a small `i` and a dot. -/
example : snakeFrom false ['a', 'İ'] = ['a', '_', 'i', '\u0307'] := by decide +kernel

/-! ### Files of use cases -/

/-- The lower case of a character is never empty. -/
theorem lower_ne_nil (c : Char) : lower c ≠ [] := by
  unfold lower caseImage
  split
  · exact List.cons_ne_nil _ _
  · split
    · rename_i s hs
      have hmem := List.mem_of_find?_eq_some hs
      simp only [lowerSequences, List.mem_singleton] at hmem
      rw [hmem]
      exact List.cons_ne_nil _ _
    · exact List.cons_ne_nil _ _

/-- Only an underscore becomes one. -/
theorem underscore_mem_lower : '_' ∈ lower c ↔ c = '_' := by
  constructor
  · intro h
    by_cases hsmall : c.toNat < 0x80
    · have hascii : ∀ n < 0x80, (Char.ofNat n).toLower = '_' → Char.ofNat n = '_' := by
        decide +kernel
      rw [lower, if_pos hsmall, List.mem_singleton] at h
      simpa using hascii c.toNat hsmall (by simpa using h.symm)
    · have hbound := le_toNat_lower (by omega) h
      exact absurd hbound (by decide)
  · rintro rfl
    decide

/-- The snake case of a text ends in an underscore exactly if the text does. -/
theorem getLast?_snakeFrom_eq_underscore :
    (snakeFrom false text).getLast? = some '_' ↔ text.getLast? = some '_' := by
  rcases List.eq_nil_or_concat' text with rfl | ⟨front, last, rfl⟩
  · exact Iff.rfl
  have hlast : (snakeFrom false (front ++ [last])).getLast? = (lower last).getLast? := by
    have hsingle : snakeFrom false [last] = lower last := by simp [snakeFrom]
    rw [snakeFrom_append_eq_gap, hsingle, List.getLast?_append_of_ne_nil _ (lower_ne_nil last)]
  rw [hlast, List.getLast?_concat, Option.some_inj]
  constructor
  · intro h
    exact underscore_mem_lower.mp (List.mem_of_getLast? h)
  · rintro rfl
    decide

theorem getLast?_fileStem_eq_underscore (method : String) :
    (fileStem method).getLast? = some '_' ↔
      ∃ c, (pascalCase method).toList.getLast? = some c ∧ (isLower c = true ∨ c = '_') := by
  have hstem : fileStem method = snakeFrom false (pascalCase method).toList ++
      if (pascalCase method).toList.getLast?.any isLower then ['_'] else [] := by
    simp only [fileStem, foldl_isLower]
  rw [hstem]
  cases hlast : (pascalCase method).toList.getLast? with
  | none =>
      rw [List.getLast?_eq_none_iff.mp hlast]
      simp [snakeFrom]
  | some c =>
      by_cases hlower : isLower c = true
      · simp [hlower]
      · simp [hlower, getLast?_snakeFrom_eq_underscore, hlast]

/-- An underscore stands before `use_case` in the file of a use case exactly if the name of the
method, as the type has it, ends in lower case or in an underscore of its own. -/
theorem suffix_fileName_useCaseType_iff (method : String) :
    "_use_case.dart".toList <:+ (fileName (useCaseType method)).toList ↔
      ∃ c, (pascalCase method).toList.getLast? = some c ∧ (isLower c = true ∨ c = '_') := by
  have hsplit : "_use_case.dart".toList = ['_'] ++ "use_case.dart".toList := by decide
  rw [toList_fileName_useCaseType, hsplit, List.suffix_append_inj_of_length_eq rfl,
    and_iff_left rfl, List.singleton_suffix_iff_getLast?_eq_some, getLast?_fileStem_eq_underscore]

/-! ### Locality -/

/-- **Snake case is determined locally.**  Two texts put together get an underscore between them
exactly if the first ends in lower case and the second starts in upper case.  So as many characters
are added to the text in lower case as there are places between a lower-case character and an
upper-case one.  They are the underscores between the words, and without them the words are the text
in lower case.  The file of a use case sets `use_case` apart exactly if the name of the method, as
the type has it, ends in lower case or in an underscore. -/
theorem snakeCase_local :
    (∀ a b : String, snakeCase (a ++ b) = snakeCase a ++
      (if a.toList.getLast?.any isLower ∧ b.toList.head?.any isUpper then "_" else "") ++
      snakeCase b) ∧
    (∀ text : String,
      (snakeCase text).length = (lowerCase text.toList).length + humps text.toList ∧
      (snakeCase text).toList = ['_'].intercalate ((words text.toList).map lowerCase) ∧
      lowerCase text.toList = ((words text.toList).map lowerCase).flatten) ∧
    ∀ method : String,
      "_use_case.dart".toList <:+ (fileName (useCaseType method)).toList ↔
        ∃ c, (pascalCase method).toList.getLast? = some c ∧ (isLower c = true ∨ c = '_') := by
  refine ⟨fun a b => ?_, fun text => ⟨?_, ?_, ?_⟩, suffix_fileName_useCaseType_iff⟩
  · have hgap : (if a.toList.getLast?.any isLower ∧ b.toList.head?.any isUpper then "_"
        else "").toList = gap (a.toList.getLast?.any isLower) b.toList := by
      simp only [gap, Bool.and_eq_true]
      split <;> rfl
    rw [← String.toList_inj, String.toList_append, String.toList_append, hgap]
    simp only [snakeCase, String.toList_ofList, String.toList_append, snakeFrom_append_eq_gap]
  · rw [← String.length_toList, snakeCase, String.toList_ofList, length_snakeFrom]
  · rw [snakeCase, String.toList_ofList, snakeFrom_eq_intercalate]
  · rw [flatten_map_lowerCase, flatten_words]

end UseCases.Generation
