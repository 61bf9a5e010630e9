/-
Generated names.

An identifier starts with a character of ASCII, and changing the case of that one character
leaves it an identifier.  The file of a type is named in snake case, where every character
may change; what is kept is that none of them separates lines or the parts of a path.
-/
import UseCases.Generation.Naming
import UseCases.Proofs.Dart.Token
import UseCases.Proofs.Text.Case

namespace UseCases.Generation

open Dart Text

/-! ### Case of the first character -/

/-- The case mappings keep a head character one head character. -/
theorem upper_lower_head {c : Char} (h : isHead c = true) :
    ∃ u l, upper c = [u] ∧ lower c = [l] ∧ isHead u = true ∧ isHead l = true := by
  have hsmall := toNat_lt_of_isHead h
  have hcase : ∀ n < 0x80, isHead (Char.ofNat n) = true →
      isHead (Char.ofNat n).toUpper = true ∧ isHead (Char.ofNat n).toLower = true := by
    decide +kernel
  have hc := hcase c.toNat hsmall (by simpa using h)
  rw [Char.ofNat_toNat] at hc
  exact ⟨c.toUpper, c.toLower, by rw [upper, if_pos hsmall], by rw [lower, if_pos hsmall],
    hc.1, hc.2⟩

theorem isIdentifier_pascalCase {name : String} (h : isIdentifier name.toList = true) :
    isIdentifier (pascalCase name).toList = true := by
  obtain ⟨c, cs, hname, hhead, hrest⟩ := exists_of_isName h
  obtain ⟨u, -, hu, -, hupper, -⟩ := upper_lower_head hhead
  simp only [pascalCase, hname, hu, String.toList_ofList, List.singleton_append, isIdentifier,
    isName, hupper, Bool.true_and, List.all_eq_true]
  exact hrest

theorem isIdentifier_camelCase {name : String} (h : isIdentifier name.toList = true) :
    isIdentifier (camelCase name).toList = true := by
  obtain ⟨c, cs, hname, hhead, hrest⟩ := exists_of_isName h
  obtain ⟨-, l, -, hl, -, hlower⟩ := upper_lower_head hhead
  simp only [camelCase, hname, hl, String.toList_ofList, List.singleton_append, isIdentifier,
    isName, hlower, Bool.true_and, List.all_eq_true]
  exact hrest

/-- A name with a suffix of identifier characters is a name. -/
theorem isIdentifier_append {name suffix : List Char} (h : isIdentifier name = true)
    (hsuffix : suffix.all isIdentifierChar = true) : isIdentifier (name ++ suffix) = true := by
  obtain ⟨c, cs, rfl, hhead, hrest⟩ := exists_of_isName h
  simp only [List.all_eq_true] at hsuffix
  simp only [List.cons_append, isIdentifier, isName, List.all_append, Bool.and_eq_true,
    List.all_eq_true]
  exact ⟨hhead, hrest, hsuffix⟩

theorem isIdentifier_useCaseType {base : String} (h : isIdentifier base.toList = true) :
    isIdentifier (useCaseType base).toList = true := by
  rw [useCaseType, String.toList_append]
  exact isIdentifier_append (isIdentifier_pascalCase h) (by decide)

theorem isIdentifier_paramsType {base : String} (h : isIdentifier base.toList = true) :
    isIdentifier (paramsType base).toList = true := by
  rw [paramsType, String.toList_append]
  exact isIdentifier_append (isIdentifier_pascalCase h) (by decide)

/-! ### File names -/

/-- A character of a file name: no control character, no separator, no quote. -/
def isFileChar (c : Char) : Bool :=
  c == '$' || c == '.' || 0x30 ≤ c.toNat

theorem isFileChar_of_mem_lower {c d : Char} (hc : isIdentifierChar c = true) (hd : d ∈ lower c) :
    isFileChar d = true := by
  by_cases hsmall : c.toNat < 0x80
  · have hascii : ∀ n < 0x80, isIdentifierChar (Char.ofNat n) = true →
        isFileChar (Char.ofNat n).toLower = true := by
      decide +kernel
    have hlower := hascii c.toNat hsmall (by simpa using hc)
    rw [lower, if_pos hsmall, List.mem_singleton] at hd
    rw [hd]
    simpa using hlower
  · have hbound := le_toNat_lower (by omega) hd
    simp only [isFileChar, Bool.or_eq_true, decide_eq_true_eq]
    omega

theorem mem_snakeFrom {d : Char} {cs : List Char} {afterLower : Bool}
    (h : d ∈ snakeFrom afterLower cs) : d = '_' ∨ ∃ c ∈ cs, d ∈ lower c := by
  induction cs generalizing afterLower with
  | nil => cases h
  | cons c cs ih =>
      rcases List.mem_append.mp h with h | h
      · rcases List.mem_append.mp h with h | h
        · split at h
          · exact Or.inl (List.mem_singleton.mp h)
          · cases h
        · exact Or.inr ⟨c, List.mem_cons_self, h⟩
      · rcases ih h with h | ⟨e, he, hd⟩
        · exact Or.inl h
        · exact Or.inr ⟨e, List.mem_cons_of_mem c he, hd⟩

/-- The file of a generated type has one plain name. -/
theorem all_isFileChar_fileName {type : String} (h : isIdentifier type.toList = true) :
    (fileName type).toList.all isFileChar = true := by
  rw [fileName, String.toList_append, List.all_append, snakeCase, String.toList_ofList,
    Bool.and_eq_true]
  refine ⟨List.all_eq_true.mpr fun d hd => ?_, by decide⟩
  rcases mem_snakeFrom hd with rfl | ⟨c, hc, hd⟩
  · decide
  · exact isFileChar_of_mem_lower (forall_mem_identifier h c hc) hd

/-! ### The files of one method

The two generated types differ in what they append to the method's name, and each appends a capital
letter with a small one after it.  So their files have the same beginning.
-/

theorem snakeFrom_append (afterLower : Bool) (cs ds : List Char) :
    snakeFrom afterLower (cs ++ ds) =
      snakeFrom afterLower cs ++ snakeFrom (cs.foldl (fun _ c => isLower c) afterLower) ds := by
  induction cs generalizing afterLower with
  | nil => rfl
  | cons c cs ih =>
      simp only [List.cons_append, snakeFrom, ih, List.foldl_cons, List.append_assoc]

/-- What the files of a method start with: its name in snake case, and an underscore after a small
letter. -/
def fileStem (base : String) : List Char :=
  let type := (pascalCase base).toList
  snakeFrom false type ++ if type.foldl (fun _ c => isLower c) false then ['_'] else []

theorem toList_fileName_append {type suffix : String} (rest : List Char)
    (h : ∀ afterLower, snakeFrom afterLower suffix.toList =
      (if afterLower then ['_'] else []) ++ rest) :
    (fileName (type ++ suffix)).toList =
      snakeFrom false type.toList ++
        (if type.toList.foldl (fun _ c => isLower c) false then ['_'] else []) ++
        (rest ++ ".dart".toList) := by
  rw [fileName, String.toList_append, snakeCase, String.toList_ofList, String.toList_append,
    snakeFrom_append, h, List.append_assoc, List.append_assoc, List.append_assoc]

theorem toList_fileName_useCaseType (base : String) :
    (fileName (useCaseType base)).toList = fileStem base ++ "use_case.dart".toList :=
  toList_fileName_append "use_case".toList (by decide +kernel)

theorem toList_fileName_paramsType (base : String) :
    (fileName (paramsType base)).toList = fileStem base ++ "params.dart".toList :=
  toList_fileName_append "params".toList (by decide +kernel)

/-- **Use cases share a file exactly if the holders of their arguments do.** -/
theorem fileName_paramsType_inj {a b : String} :
    fileName (paramsType a) = fileName (paramsType b) ↔
      fileName (useCaseType a) = fileName (useCaseType b) := by
  rw [← String.toList_inj, ← String.toList_inj, toList_fileName_paramsType,
    toList_fileName_paramsType, toList_fileName_useCaseType, toList_fileName_useCaseType,
    List.append_left_inj, List.append_left_inj]

/-- **No use case shares a file with a holder of arguments.** -/
theorem fileName_useCaseType_ne (a b : String) :
    fileName (useCaseType a) ≠ fileName (paramsType b) := by
  intro h
  have hends := congrArg (fun s : String => s.toList.reverse) h
  simp only [toList_fileName_useCaseType, toList_fileName_paramsType, List.reverse_append] at hends
  have hsix := congrArg (List.take 6) hends
  simp at hsix

end UseCases.Generation
