/-
What a package URI names.

A path is made of segments with a slash of either kind between any two.  A package URI names what
follows the first segment `lib` that another one follows, so that a file of this name is no
directory, and neither is a longer name that ends like it.  The path is not cut for this: `lib/` is
looked for at its start, and `/lib/` anywhere.  With one more slash in front of the path the two
searches are one.  A segment has no slash in it, so the search goes from slash to slash and meets
the segments one after the other.

A path without such a segment is taken over, except for what says that it starts here or at the
root.  In both cases the segments alone decide, and which slashes stand between them does not.
-/
import Mathlib.Data.List.Forall2
import UseCases.Generation.PackageUri
import UseCases.Proofs.Text.Scanning

namespace UseCases.Generation

open Text

variable {path s x : List Char} {front more : List (List Char)}

/-! ### Segments -/

def isSeparator (c : Char) : Bool :=
  c == '/' || c == '\\'

/-- What stands between the slashes of a path. -/
def segments (path : List Char) : List (List Char) :=
  splitAt isSeparator path

/-- The name of the directory that holds the files of a package. -/
def libName : List Char := "lib".toList

theorem segments_ne_nil (path : List Char) : segments path ≠ [] :=
  splitAt_ne_nil isSeparator path

theorem slash_notMem_segment (h : s ∈ segments path) : '/' ∉ s :=
  fun hslash => absurd (eq_false_of_mem_splitAt h hslash) (by decide)

theorem forwardSlashes_separator {c : Char} (h : isSeparator c = true) (cs : List Char) :
    forwardSlashes (c :: cs) = '/' :: forwardSlashes cs := by
  rw [forwardSlashes, List.map_cons]
  rcases Bool.or_eq_true_iff.mp h with hc | hc
  · rw [beq_iff_eq.mp hc]
    rfl
  · rw [beq_iff_eq.mp hc]
    rfl

theorem forwardSlashes_other {c : Char} (h : isSeparator c = false) (cs : List Char) :
    forwardSlashes (c :: cs) = c :: forwardSlashes cs := by
  have hc := beq_eq_false_iff_ne.mp (Bool.or_eq_false_iff.mp h).2
  rw [forwardSlashes, List.map_cons, if_neg hc]
  rfl

/-- The segments with slashes between them are the path again. -/
theorem intercalate_segments (path : List Char) :
    List.intercalate ['/'] (segments path) = forwardSlashes path := by
  induction path with
  | nil => rfl
  | cons c cs ih =>
      rw [segments] at ih ⊢
      rw [splitAt]
      split
      · rename_i hnil
        exact absurd hnil (splitAt_ne_nil isSeparator cs)
      · rename_i first others hsegments
        rw [hsegments] at ih
        by_cases hc : isSeparator c = true
        · rw [if_pos hc, intercalate_nil_cons, ih, forwardSlashes_separator hc]
        · rw [if_neg hc, intercalate_cons_first, ih,
            forwardSlashes_other (Bool.eq_false_iff.mpr hc)]

/-! ### The search -/

/-- The two searches are one behind a slash. -/
theorem afterLib?_eq (path : List Char) :
    afterLib? path = afterFirst? "/lib/".toList ('/' :: path) := by
  rw [afterFirst?]
  rfl

/-- What stands before a slash can be told from the slash. -/
theorem before_slash {a b y : List Char} (ha : '/' ∉ a) (hb : '/' ∉ b)
    (h : a ++ '/' :: x = b ++ '/' :: y) : a = b := by
  have hother : ∀ text : List Char, '/' ∉ text → ∀ c ∈ text, (c != '/') = true :=
    fun text htext c hc => bne_iff_ne.mpr fun heq => htext (heq ▸ hc)
  refine (class_unique (hother a ha) (hother b hb) ?_ ?_ h).1
  · rintro c ⟨rfl⟩
    rfl
  · rintro c ⟨rfl⟩
    rfl

theorem after?_segment (hs : '/' ∉ s) (hlib : s ≠ libName) (x : List Char) :
    after? "/lib/".toList ('/' :: (s ++ '/' :: x)) = none := by
  cases hafter : after? "/lib/".toList ('/' :: (s ++ '/' :: x)) with
  | none => rfl
  | some rest =>
      have hwhole : s ++ '/' :: x = libName ++ '/' :: rest :=
        (List.cons.inj (after?_eq_some.mp hafter)).2
      exact absurd (before_slash hs (by decide) hwhole) hlib

/-- The search goes on at the next slash. -/
theorem afterFirst?_segment (hs : '/' ∉ s) (hlib : s ≠ libName) (x : List Char) :
    afterFirst? "/lib/".toList ('/' :: (s ++ '/' :: x))
      = afterFirst? "/lib/".toList ('/' :: x) := by
  rw [afterFirst?, after?_segment hs hlib, Option.none_or]
  exact afterFirst?_append "lib/".toList hs ('/' :: x)

theorem afterFirst?_last (hs : '/' ∉ s) : afterFirst? "/lib/".toList ('/' :: s) = none := by
  have hstart : after? "/lib/".toList ('/' :: s) = none := by
    cases hafter : after? "/lib/".toList ('/' :: s) with
    | none => rfl
    | some rest =>
        have hwhole : s = libName ++ '/' :: rest := (List.cons.inj (after?_eq_some.mp hafter)).2
        exact absurd (hwhole ▸ List.mem_append_right libName List.mem_cons_self) hs
  have hlater := afterFirst?_append "lib/".toList hs []
  rw [List.append_nil] at hlater
  rw [afterFirst?, hstart, Option.none_or]
  exact hlater

/-- **The first directory `lib` is found**, and what follows it is left. -/
theorem afterFirst?_segments (hslash : ∀ s ∈ front ++ libName :: more, '/' ∉ s)
    (hfirst : libName ∉ front) (hmore : more ≠ []) :
    afterFirst? "/lib/".toList ('/' :: List.intercalate ['/'] (front ++ libName :: more))
      = some (List.intercalate ['/'] more) := by
  induction front with
  | nil =>
      obtain ⟨next, others, rfl⟩ := List.exists_cons_of_ne_nil hmore
      rw [List.nil_append, List.intercalate_cons_cons]
      exact afterFirst?_start _
  | cons s front ih =>
      obtain ⟨hs, hfront⟩ := not_or.mp (mt List.mem_cons.mpr hfirst)
      obtain ⟨next, others, hrest⟩ := List.exists_cons_of_ne_nil
        (List.append_ne_nil_of_right_ne_nil front (List.cons_ne_nil libName more))
      rw [List.cons_append, hrest, List.intercalate_cons_cons, List.append_assoc,
        List.singleton_append, afterFirst?_segment (hslash s List.mem_cons_self) (Ne.symm hs),
        ← hrest]
      exact ih (fun t ht => hslash t (List.mem_cons_of_mem s ht)) hfront

theorem afterFirst?_eq_none {all : List (List Char)} (hne : all ≠ [])
    (hslash : ∀ s ∈ all, '/' ∉ s) (hlib : libName ∉ all.dropLast) :
    afterFirst? "/lib/".toList ('/' :: List.intercalate ['/'] all) = none := by
  induction all with
  | nil => exact absurd rfl hne
  | cons s rest ih =>
      cases rest with
      | nil =>
          rw [List.intercalate_singleton]
          exact afterFirst?_last (hslash s List.mem_cons_self)
      | cons next others =>
          rw [List.dropLast_cons_cons] at hlib
          obtain ⟨hs, hothers⟩ := not_or.mp (mt List.mem_cons.mpr hlib)
          rw [List.intercalate_cons_cons, List.append_assoc, List.singleton_append,
            afterFirst?_segment (hslash s List.mem_cons_self) (Ne.symm hs)]
          exact ih (List.cons_ne_nil next others)
            (fun t ht => hslash t (List.mem_cons_of_mem s ht)) hothers

/-! ### What is named -/

theorem libraryPath_of_lib (hsegments : segments path = front ++ libName :: more)
    (hfirst : libName ∉ front) (hmore : more ≠ []) :
    libraryPath path = List.intercalate ['/'] more := by
  have hslash : ∀ s ∈ front ++ libName :: more, '/' ∉ s := fun s hs =>
    slash_notMem_segment (hsegments ▸ hs)
  rw [libraryPath, ← intercalate_segments, hsegments, afterLib?_eq,
    afterFirst?_segments hslash hfirst hmore, Option.getD_some]

theorem libraryPath_of_no_lib (h : libName ∉ (segments path).dropLast) :
    libraryPath path
      = (dropCopies "./".toList (forwardSlashes path)).dropWhile (· == '/') := by
  have hnone := afterFirst?_eq_none (segments_ne_nil path) (fun _ => slash_notMem_segment) h
  rw [intercalate_segments] at hnone
  rw [libraryPath, afterLib?_eq, hnone, Option.getD_none]

theorem libraryPath_suffix (path : List Char) : libraryPath path <:+ forwardSlashes path := by
  show (afterLib? (forwardSlashes path)).getD
    ((dropCopies "./".toList (forwardSlashes path)).dropWhile (· == '/')) <:+ _
  cases hafter : afterLib? (forwardSlashes path) with
  | none => exact (List.dropWhile_suffix _).trans (dropCopies_suffix _ _)
  | some rest =>
      rw [afterLib?, Option.or_eq_some_iff] at hafter
      rcases hafter with hstart | ⟨-, hlater⟩
      · exact after?_suffix hstart
      · exact afterFirst?_suffix hlater

/-- What is left of a path that is taken over: first `./` is dropped wherever it leads, and then
every leading slash. -/
theorem exists_libraryPath (h : libName ∉ (segments path).dropLast) :
    ∃ dots slashes, forwardSlashes path = (List.replicate dots "./".toList).flatten
        ++ (List.replicate slashes '/' ++ libraryPath path) ∧
      ¬"./".toList <+: List.replicate slashes '/' ++ libraryPath path ∧
      (libraryPath path).head? ≠ some '/' := by
  rw [libraryPath_of_no_lib h]
  obtain ⟨dots, hpath, hdots⟩ := exists_dropCopies (show "./".toList ≠ [] by decide)
    (forwardSlashes path)
  obtain ⟨slashes, hslashes, hhead⟩ := exists_dropWhile_copies '/'
    (dropCopies "./".toList (forwardSlashes path))
  refine ⟨dots, slashes, ?_, ?_, hhead⟩
  · rw [← hslashes, ← hpath]
  · rw [← hslashes]
    exact hdots

/-- The URI of a file in a package, with the extension put behind it where it is missing. -/
def IsUriOf (package : String) (file : List Char) (uri : String) : Prop :=
  ∃ plain : List Char, plain = "package:".toList ++ (package.toList ++ '/' :: file) ∧
    (dartExtension <:+ plain ∧ uri.toList = plain ∨
      ¬dartExtension <:+ plain ∧ uri.toList = plain ++ dartExtension)

theorem isUriOf_packageUri (package path : String) :
    IsUriOf package (libraryPath path.toList) (packageUri package path) := by
  have hplain : (packageUri package path).toList = withExtension
      ("package:".toList ++ (package.toList ++ '/' :: libraryPath path.toList)) := by
    simp [packageUri]
  refine ⟨_, rfl, ?_⟩
  rw [hplain, withExtension, endsWith]
  by_cases hends : dartExtension <:+
      "package:".toList ++ (package.toList ++ '/' :: libraryPath path.toList)
  · exact Or.inl ⟨hends, if_pos (List.isSuffixOf_iff_suffix.mpr hends)⟩
  · exact Or.inr ⟨hends, if_neg (mt List.isSuffixOf_iff_suffix.mp hends)⟩

/-- What has no slash in it ends a text exactly if it ends what follows a slash of the text. -/
theorem suffix_behind_slash {ending : List Char} (h : '/' ∉ ending) (a b : List Char) :
    ending <:+ a ++ '/' :: b ↔ ending <:+ b := by
  refine ⟨fun hends => ?_, fun hends => hends.trans ⟨a ++ ['/'], by simp⟩⟩
  obtain ⟨front, hfront⟩ := hends
  rcases List.append_eq_append_iff.mp hfront with ⟨gap, -, hending⟩ | ⟨gap, -, hrest⟩
  · exact absurd (hending ▸ List.mem_append_right gap List.mem_cons_self) h
  · cases gap with
    | nil =>
        rw [List.nil_append] at hrest
        exact absurd (hrest ▸ List.mem_cons_self) h
    | cons c gap => exact ⟨gap, ((List.cons.inj hrest).2).symm⟩

/-- Whether the extension is there can be told from the file alone. -/
theorem toList_packageUri (package path : String) :
    (packageUri package path).toList = "package:".toList ++ (package.toList
      ++ '/' :: withExtension (libraryPath path.toList)) := by
  have hends : endsWith dartExtension
      ("package:".toList ++ package.toList ++ '/' :: libraryPath path.toList)
        = endsWith dartExtension (libraryPath path.toList) := by
    rw [Bool.eq_iff_iff, endsWith, endsWith, List.isSuffixOf_iff_suffix,
      List.isSuffixOf_iff_suffix]
    exact suffix_behind_slash (by decide) _ _
  have hwhole : (packageUri package path).toList = withExtension
      ("package:".toList ++ package.toList ++ '/' :: libraryPath path.toList) := by
    simp [packageUri]
  rw [hwhole, withExtension, withExtension, hends]
  split <;> simp

/-- The URI of a file of a package. -/
def fileUri (package file : String) : String :=
  "package:" ++ package ++ "/" ++ file

theorem packageUri_eq (package path : String) : packageUri package path
    = fileUri package (String.ofList (withExtension (libraryPath path.toList))) := by
  rw [← String.toList_inj, toList_packageUri]
  simp [fileUri]

/-! ### Segments decide -/

/-- The same path, perhaps with the other kind of slash in some places. -/
def SameButSlashes (path other : List Char) : Prop :=
  List.Forall₂ (fun c d => c = d ∨ isSeparator c = true ∧ isSeparator d = true) path other

theorem SameButSlashes.forwardSlashes_eq {other : List Char} (h : SameButSlashes path other) :
    forwardSlashes path = forwardSlashes other := by
  induction h with
  | nil => rfl
  | cons hchar _ ih =>
      rcases hchar with rfl | ⟨hc, hd⟩
      · rw [forwardSlashes, forwardSlashes, List.map_cons, List.map_cons, ← forwardSlashes, ih]
        rfl
      · rw [forwardSlashes_separator hc, forwardSlashes_separator hd, ih]

theorem packageUri_congr {package : String} {path other : String}
    (h : libraryPath path.toList = libraryPath other.toList) :
    packageUri package path = packageUri package other := by
  rw [packageUri, packageUri, h]

/-- A directory `lib` behind a text without one: the text does not count. -/
theorem libraryPath_behind_lib (h : libName ∉ segments path) (x : List Char) :
    libraryPath (path ++ "/lib/".toList ++ x) = List.intercalate ['/'] (segments x) := by
  have hsegments : segments (path ++ "/lib/".toList ++ x)
      = segments path ++ libName :: segments x := by
    rw [List.append_assoc]
    exact (splitAt_append path (libName ++ '/' :: x) rfl).trans
      (congrArg (segments path ++ ·) (splitAt_append libName x rfl))
  exact libraryPath_of_lib hsegments h (segments_ne_nil x)

/--
**A package URI follows the segments of the path.**  If one of them, the last one apart, is `lib`,
it names the segments behind the first such one.  If not, it names the path with slashes for
backslashes, without the `./` and then without the slashes that lead it.  Other slashes in the path
do not change the URI, and neither does what stands before a directory `lib`, if there is none in
it.
-/
theorem packageUri_follows_segments (package path : String) :
    (libName ∈ (segments path.toList).dropLast →
      ∃ front more, segments path.toList = front ++ libName :: more ∧ libName ∉ front ∧
        IsUriOf package (List.intercalate ['/'] more) (packageUri package path)) ∧
    (libName ∉ (segments path.toList).dropLast →
      ∃ dots slashes file, forwardSlashes path.toList = (List.replicate dots "./".toList).flatten
          ++ (List.replicate slashes '/' ++ file) ∧
        ¬"./".toList <+: List.replicate slashes '/' ++ file ∧ file.head? ≠ some '/' ∧
        IsUriOf package file (packageUri package path)) ∧
    (∀ other : String, SameButSlashes path.toList other.toList →
      packageUri package path = packageUri package other) ∧
    (libName ∉ segments path.toList → ∀ rest : String,
      packageUri package (path ++ "/lib/" ++ rest) = packageUri package ("lib/" ++ rest)) := by
  have huri := isUriOf_packageUri package path
  refine ⟨fun hlib => ?_, fun hlib => ?_, fun other hsame => ?_, fun hlib rest => ?_⟩
  · obtain ⟨front, back, hfront, hfirst⟩ := List.eq_append_cons_of_mem hlib
    have hsegments : segments path.toList = front ++ libName :: (back
        ++ [(segments path.toList).getLast (segments_ne_nil _)]) := by
      rw [← List.cons_append, ← List.append_assoc, ← hfront, List.dropLast_append_getLast]
    rw [libraryPath_of_lib hsegments hfirst (by simp)] at huri
    exact ⟨front, _, hsegments, hfirst, huri⟩
  · obtain ⟨dots, slashes, hpath, hdots, hhead⟩ := exists_libraryPath hlib
    exact ⟨dots, slashes, _, hpath, hdots, hhead, huri⟩
  · refine packageUri_congr ?_
    rw [libraryPath, libraryPath, hsame.forwardSlashes_eq]
  · refine packageUri_congr ?_
    have hstart : segments ("lib/" ++ rest).toList = [] ++ libName :: segments rest.toList := by
      rw [String.toList_append]
      exact splitAt_append libName rest.toList rfl
    rw [String.toList_append, String.toList_append, libraryPath_behind_lib hlib,
      libraryPath_of_lib hstart List.not_mem_nil (segments_ne_nil _)]

/-- A directory whose name ends in `lib` is none, and of two that are one the first counts. -/
theorem uri_of_nested_lib :
    libName ∈ (segments "mylib\\lib\\vendor/lib/cart".toList).dropLast ∧
      (∃ front more, segments "mylib\\lib\\vendor/lib/cart".toList = front ++ libName :: more ∧
        libName ∉ front ∧ IsUriOf "shop" (List.intercalate ['/'] more)
          (packageUri "shop" "mylib\\lib\\vendor/lib/cart")) ∧
      packageUri "shop" "mylib\\lib\\vendor/lib/cart" = "package:shop/vendor/lib/cart.dart" ∧
      libName ∉ segments "C:\\mylib".toList ∧
      packageUri "shop" ("C:\\mylib" ++ "/lib/" ++ "cart")
        = packageUri "shop" ("lib/" ++ "cart") := by
  have hlib : libName ∈ (segments "mylib\\lib\\vendor/lib/cart".toList).dropLast := by decide
  have hnone : libName ∉ segments "C:\\mylib".toList := by decide
  exact ⟨hlib, (packageUri_follows_segments "shop" _).1 hlib, by decide, hnone,
    (packageUri_follows_segments "shop" _).2.2.2 hnone "cart"⟩

end UseCases.Generation
