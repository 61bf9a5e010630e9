/-
The import of the `Failure` type.

Settings give the file of the type inside `lib`, and a use case of an error union imports it.  Its
URI is derived as that of any file of the project, though the path starts behind `lib` already: a
directory `lib` inside the package is taken for the package's own, and what stands in front of it
is dropped.  Every other path is kept as it is, if only slashes divide it.
-/
import UseCases.Files.Path
import UseCases.Proofs.Generation.ErrorUnion
import UseCases.Proofs.Generation.PathSpelling

namespace UseCases.Generation

open Dart Declaration Files Text

variable {path : List Char}

/-- A Dart file inside `lib`: names with slashes between them, of which the first is not `lib`
again. -/
structure IsInsideLib (file : Path) : Prop where
  named : ∀ name ∈ file.pieces, name ≠ [] ∧ name ≠ ['.'] ∧ name ≠ ['.', '.']
  inside : file.pieces.head? ≠ some libName
  isDart : dartExtension <:+ file.toList

/-! ### Paths that only slashes divide -/

theorem forwardSlashes_of_forward (h : '\\' ∉ path) : forwardSlashes path = path := by
  have hkeep : ∀ c ∈ path, (if c = '\\' then '/' else c) = c := by
    intro c hc
    rw [if_neg]
    exact fun heq => h (heq ▸ hc)
  rw [forwardSlashes, List.map_congr_left hkeep, List.map_id']

theorem splitAt_congr {isCut isCut' : Char → Bool} {text : List Char}
    (h : ∀ c ∈ text, isCut c = isCut' c) : splitAt isCut text = splitAt isCut' text := by
  induction text with
  | nil => rfl
  | cons c cs ih =>
      rw [splitAt, splitAt, ih fun d hd => h d (List.mem_cons_of_mem c hd),
        h c List.mem_cons_self]

theorem segments_of_forward {file : Path} (h : '\\' ∉ file.toList) :
    segments file.toList = file.pieces := by
  refine splitAt_congr fun c hc => ?_
  rw [isSeparator, (beq_eq_false_iff_ne (b := '\\')).mpr fun heq => h (heq ▸ hc), Bool.or_false]

theorem backslash_notMem_forwardSlashes (path : List Char) : '\\' ∉ forwardSlashes path := by
  rw [forwardSlashes, List.mem_map]
  rintro ⟨c, -, hc⟩
  split at hc
  · exact absurd hc (by decide)
  · contradiction

/-! ### The URI -/

theorem fileUri_inj {package file file' : String}
    (h : fileUri package file = fileUri package file') : file = file' := by
  rw [← String.toList_inj] at h ⊢
  simpa [fileUri] using h

/-- The file of a path that starts behind `lib` and has no further directory of that name. -/
theorem libraryPath_of_inside {file : Path} (h : IsInsideLib file) (hforward : '\\' ∉ file.toList)
    (hlib : libName ∉ file.pieces.dropLast) : libraryPath file.toList = file.toList := by
  have hname : ∀ name rest, file.toList = name ++ '/' :: rest → '/' ∉ name →
      name ≠ [] ∧ name ≠ ['.'] := by
    intro name rest hfile hslash
    have hpiece : splitAt (· == '/') name = [name] := splitAt_eq_singleton fun c hc =>
      beq_eq_false_iff_ne.mpr fun heq => hslash (heq ▸ hc)
    have hmem : name ∈ file.pieces := by
      rw [Path.pieces, hfile, splitAt_append name rest rfl, hpiece]
      exact List.mem_cons_self
    exact ⟨(h.named name hmem).1, (h.named name hmem).2.1⟩
  have hdots : ¬"./".toList <+: forwardSlashes file.toList := by
    rw [forwardSlashes_of_forward hforward]
    rintro ⟨rest, hrest⟩
    exact (hname ['.'] rest hrest.symm (by decide)).2 rfl
  have hpath := libraryPath_lead 0 0 (by rwa [segments_of_forward hforward]) hdots
  rw [forwardSlashes_of_forward hforward] at hpath
  obtain ⟨slashes, hslashes, -⟩ := exists_dropWhile_copies '/' file.toList
  cases slashes with
  | zero => exact hpath.trans hslashes.symm
  | succ slashes => exact absurd rfl (hname [] _ hslashes List.not_mem_nil).1

/-- A path inside `lib` is kept exactly if only slashes divide it and no directory of it is a
further `lib`. -/
theorem libraryPath_eq_iff {file : Path} (h : IsInsideLib file) :
    withExtension (libraryPath file.toList) = file.toList ↔
      '\\' ∉ file.toList ∧ libName ∉ file.pieces.dropLast := by
  constructor
  · intro hkept
    have hforward : '\\' ∉ file.toList := by
      rw [← hkept, withExtension]
      have hnone : '\\' ∉ libraryPath file.toList := fun hmem =>
        backslash_notMem_forwardSlashes _ ((libraryPath_suffix _).mem hmem)
      split
      · exact hnone
      · exact fun hmem => (List.mem_append.mp hmem).elim hnone (by decide)
    refine ⟨hforward, fun hlib => ?_⟩
    rw [← segments_of_forward hforward] at hlib
    have hsuffix := slash_libraryPath_suffix hlib
    rw [forwardSlashes_of_forward hforward] at hsuffix
    have hends : dartExtension <:+ libraryPath file.toList := by
      obtain ⟨front, hfront⟩ := hsuffix
      refine (suffix_behind_slash (by decide) front _).mp ?_
      rw [hfront]
      exact h.isDart
    rw [withExtension, endsWith, if_pos (List.isSuffixOf_iff_suffix.mpr hends)] at hkept
    have hlength := hsuffix.length_le
    rw [hkept, List.length_cons] at hlength
    omega
  · rintro ⟨hforward, hlib⟩
    rw [libraryPath_of_inside h hforward hlib, withExtension, endsWith,
      if_pos (List.isSuffixOf_iff_suffix.mpr h.isDart)]

/-- What a use case imports is a row of its file. -/
theorem exists_row_of_import {method : Method} {base : String} {mode : Mode}
    {context : ImportContext} {i : Import} (repository : String)
    (h : i ∈ useCaseImports method base mode context) :
    ∃ above below, (useCaseUnit method base repository mode context).content.toList
      = rowsText (above ++ i.directive :: below) := by
  obtain ⟨above, below, hrows⟩ := List.append_of_mem
    (List.mem_map_of_mem (f := Import.directive) (mem_fileImports.mpr h))
  rw [useCase_rows, hrows, List.append_assoc, List.cons_append]
  exact ⟨above, _, rfl⟩

/--
**The failure import is the configured file of the package** exactly if no directory of the path is
a further `lib` and no backslash stands in it, and whichever it is, every use case of an error
union has it as a row of its own.
-/
theorem failureImport_follows_settings (context : ImportContext)
    (h : IsInsideLib context.failure) :
    (context.failureImport.uri = fileUri context.package context.failure ↔
      '\\' ∉ context.failure.toList ∧ libName ∉ (Path.pieces context.failure).dropLast) ∧
    ∀ method base repository mode, method.shape = .errorUnionFuture →
      ∃ above below, (useCaseUnit method base repository mode context).content.toList
        = rowsText (above ++ context.failureImport.directive :: below) := by
  refine ⟨?_, fun method base repository mode hshape => ?_⟩
  · rw [← libraryPath_eq_iff h, ImportContext.failureImport, packageUri_eq]
    refine ⟨fun huri => ?_, fun hkept => ?_⟩
    · rw [← String.toList_ofList (l := withExtension _)]
      exact congrArg String.toList (fileUri_inj huri)
    · rw [hkept, String.ofList_toList]
  · exact exists_row_of_import repository
      (imports_of_errorUnion hshape base mode context _ (by simp))

/-- A repository whose failures are kept in a directory with `lib` in its name. -/
def mylibContext : ImportContext :=
  ⟨"shop", "lib/orders/order_repository.dart", "core/mylib/failures.dart"⟩

theorem mylib_is_kept :
    IsInsideLib mylibContext.failure ∧
      mylibContext.failureImport.uri = fileUri "shop" "core/mylib/failures.dart" ∧
      ∃ above below, (useCaseUnit ⟨"find", "User", [], .errorUnionFuture, 2⟩ "find"
          "OrderRepository" .professional mylibContext).content.toList
        = rowsText (above ++ mylibContext.failureImport.directive :: below) := by
  have hinside : IsInsideLib mylibContext.failure := ⟨by decide, by decide, by decide⟩
  obtain ⟨huri, hrow⟩ := failureImport_follows_settings mylibContext hinside
  exact ⟨hinside, huri.mpr ⟨by decide, by decide⟩,
    hrow _ "find" "OrderRepository" .professional rfl⟩

/-- A directory `lib` inside the package is taken for the package's own: the import names another
file than the settings do. -/
theorem inner_lib_is_dropped :
    IsInsideLib "core/lib/failures.dart" ∧
      (ImportContext.failureImport ⟨"shop", "lib/orders/order_repository.dart",
        "core/lib/failures.dart"⟩).uri = "package:shop/failures.dart" ∧
      fileUri "shop" "core/lib/failures.dart" = "package:shop/core/lib/failures.dart" :=
  ⟨⟨by decide, by decide, by decide⟩, by decide, by decide⟩

end UseCases.Generation
