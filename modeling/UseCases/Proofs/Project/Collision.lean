/-
Use cases that claim one file.

The file of a use case is named after its class in snake case, and the class after the method in
Pascal case; the output directory is named after the declaration file, unless it is given.  Both
forget something: two methods of one declaration file, or of two files with one output directory,
may claim the same file.  Then the second use case replaces the first one, or is skipped for it.

It is the only way to lose a use case.  As long as two requests for use cases of the same file name
go to different directories, and no link stands where a file goes, everything that a run reports is
still so when the run ends.
-/
import UseCases.Proofs.Project.Request

namespace UseCases.Project

open Dart Declaration Files Generation Report

/-! ### Use cases of one file name -/

/-- Units of two methods that have one file name are both use cases or both holders, and then the
use cases have one file name. -/
theorem fileName_useCaseType_of_units {a b : Method} {r s : String} {mode : Mode}
    {c d : ImportContext} {unit unit' : GeneratedUnit}
    (h : unit ∈ units a a.name r mode c) (h' : unit' ∈ units b b.name s mode d)
    (hname : unit.fileName = unit'.fileName) :
    fileName (useCaseType a.name) = fileName (useCaseType b.name) := by
  rcases fileName_of_mem_units h with hu | hu <;> rcases fileName_of_mem_units h' with hu' | hu' <;>
    rw [hu, hu'] at hname
  · exact hname
  · exact absurd hname (fileName_useCaseType_ne a.name b.name)
  · exact absurd hname.symm (fileName_useCaseType_ne b.name a.name)
  · exact fileName_paramsType_inj.mp hname

namespace Request

variable {o : GenerateOptions} {r s : Request} {w v : World} {f g : OutputFile}

/-- Two use cases do not claim one file: their files have different names or go to different
directories. -/
def Apart (o : GenerateOptions) (w : World) (r s : Request) : Prop :=
  ∀ place ∈ r.folder o w, place ∈ s.folder o w →
    fileName (useCaseType r.method.name) ≠ fileName (useCaseType s.method.name)

/-- No link stands where a file of the request goes. -/
def Unlinked (o : GenerateOptions) (w : World) (r : Request) : Prop :=
  ∀ place ∈ r.folder o w, ∀ unit ∈ r.units o, w.tree.IsUnlinked (place ++ [unit.fileName])

instance (o : GenerateOptions) (w : World) (r s : Request) : Decidable (Request.Apart o w r s) :=
  inferInstanceAs (Decidable (∀ place ∈ r.folder o w, place ∈ s.folder o w →
    fileName (useCaseType r.method.name) ≠ fileName (useCaseType s.method.name)))

instance (o : GenerateOptions) (w : World) (r : Request) : Decidable (r.Unlinked o w) :=
  inferInstanceAs (Decidable (∀ place ∈ r.folder o w, ∀ unit ∈ r.units o,
    w.tree.IsUnlinked (place ++ [unit.fileName])))

/-! ### The places of files -/

/-- The file of a unit is found in the directory of its request. -/
theorem place_of_leadsTo {touched : Location → Prop} {unit : GeneratedUnit} {place : Location}
    (hname : isIdentifier r.method.name.toList = true) (hunlinked : r.Unlinked o w)
    (hchanges : w.Changes touched v) (hunit : unit ∈ r.units o)
    (hleads : (r.file o unit).LeadsTo v place) :
    ∃ folder, r.folder o w = some folder ∧ place = folder ++ [unit.fileName] := by
  have hplace : destination w.tree w.cwd (r.file o unit).path = some place := by
    refine destination_of_lookup hchanges.grown (show Purpose.target ≠ .entry by decide) ?_
    rw [← hchanges.cwd]
    exact hleads
  obtain ⟨folder, hfolder, hlast⟩ := folder_of_destination hname hunit hplace
  exact ⟨folder, hfolder, hlast (hunlinked folder hfolder unit hunit)⟩

/-- The files of one request have different names. -/
theorem files_pairwise (hname : isIdentifier r.method.name.toList = true)
    (hunlinked : r.Unlinked o w) {touched : Location → Prop} (hchanges : w.Changes touched v) :
    (r.files o).Pairwise (OutputFile.Apart v) := by
  have hnames : (r.units o).Pairwise fun unit unit' => unit.fileName ≠ unit'.fileName := by
    unfold units Generation.units
    split
    · rw [List.pairwise_pair]
      exact fileName_useCaseType_ne _ _
    · exact List.pairwise_singleton _ _
  rw [files_eq, List.pairwise_map]
  refine hnames.imp_of_mem ?_
  intro unit unit' hunit hunit' hne place hleads hleads'
  obtain ⟨folder, hfolder, hplace⟩ := place_of_leadsTo hname hunlinked hchanges hunit hleads
  obtain ⟨folder', hfolder', hplace'⟩ := place_of_leadsTo hname hunlinked hchanges hunit' hleads'
  have hlast := List.append_inj' (hplace.symm.trans hplace') rfl
  exact hne (List.singleton_inj.mp hlast.2)

/-- The files of requests that are apart are apart. -/
theorem files_apart (hr : isIdentifier r.method.name.toList = true) (hr' : r.Unlinked o w)
    (hs : isIdentifier s.method.name.toList = true) (hs' : s.Unlinked o w)
    (hapart : Request.Apart o w r s) {touched : Location → Prop} (hchanges : w.Changes touched v) :
    ∀ f ∈ r.files o, ∀ g ∈ s.files o, f.Apart v g := by
  intro f hf g hg place hleads hleads'
  rw [files_eq] at hf hg
  obtain ⟨unit, hunit, rfl⟩ := List.mem_map.mp hf
  obtain ⟨unit', hunit', rfl⟩ := List.mem_map.mp hg
  obtain ⟨folder, hfolder, hplace⟩ := place_of_leadsTo hr hr' hchanges hunit hleads
  obtain ⟨folder', hfolder', hplace'⟩ := place_of_leadsTo hs hs' hchanges hunit' hleads'
  obtain ⟨hsame, hlast⟩ := List.append_inj' (hplace.symm.trans hplace') rfl
  refine hapart folder hfolder (hsame ▸ hfolder') ?_
  exact fileName_useCaseType_of_units hunit hunit' (List.singleton_inj.mp hlast)

end Request

variable {o : GenerateOptions} {w v : World}

/-- The files of a run lead to different places. -/
theorem requests_files_pairwise {paths : List Path} {touched : Location → Prop}
    (hapart : (requests o paths w).Pairwise (Request.Apart o w))
    (hunlinked : ∀ r ∈ requests o paths w, r.Unlinked o w) (hchanges : w.Changes touched v) :
    ((requests o paths w).flatMap (Request.files o)).Pairwise (OutputFile.Apart v) := by
  rw [List.pairwise_flatMap]
  constructor
  · intro r hr
    exact Request.files_pairwise (isIdentifier_of_mem_requests hr) (hunlinked r hr) hchanges
  · refine hapart.imp_of_mem ?_
    intro r s hr hs hrs
    exact Request.files_apart (isIdentifier_of_mem_requests hr) (hunlinked r hr)
      (isIdentifier_of_mem_requests hs) (hunlinked s hs) hrs hchanges

/-! ### Runs -/

/-- **No use case of a run is lost to another one**, as long as use cases whose files have one name
go to different directories and no link stands where a file goes.  The units in the report have
different paths, each is the path of a requested file, and at the end of the run a unit that was
written has the content of that file, while one that was skipped is a file from before the run, if
it is a file. -/
theorem generate_loses_no_unit (o : GenerateOptions) (paths : List Path) (w : World)
    (hreal : o.dryRun = false)
    (hapart : (requests o paths w).Pairwise (Request.Apart o w))
    (hunlinked : ∀ r ∈ requests o paths w, r.Unlinked o w) :
    let run := (generate o paths : Session GenerationReport) w
    (run.1.units.map UnitOutcome.path).Nodup ∧
      (∀ unit ∈ run.1.units, ∃ file ∈ requestedFiles o paths w, file.path = unit.path) ∧
      (∀ file ∈ requestedFiles o paths w, (⟨file.path, .written⟩ : UnitOutcome) ∈ run.1.units →
        run.2.read file.path = .ok file.content.toUTF8) ∧
      ∀ unit ∈ run.1.units, unit.status = .skipped →
        ∃ place, run.2.target unit.path = .found place ∧ ∀ content,
          run.2.tree.find? place = some (.file content) →
            w.tree.find? place = some (.file content) := by
  intro run
  obtain ⟨deeds, hdeeds, hfiles, hunits⟩ := accounts_of_runAll hreal paths
  have hrequested := requests_files_pairwise hapart hunlinked hdeeds.changes
  have hdeedsApart := hrequested.sublist hfiles
  have heffect := hdeeds.inEffect hdeedsApart
  have hunit : ∀ unit ∈ run.1.units, ∃ d ∈ deeds, d.outcome = unit := by
    intro unit hmem
    exact List.mem_map.mp (hunits.subset hmem)
  have hrequest : ∀ d ∈ deeds, d.file ∈ requestedFiles o paths w := by
    intro d hd
    exact hfiles.subset (List.mem_map_of_mem hd)
  refine ⟨?paths, ?requested, ?written, ?skipped⟩
  case paths =>
    have hpaths := hunits.map UnitOutcome.path
    rw [List.map_map, show UnitOutcome.path ∘ Deed.outcome = fun d => d.file.path from
      funext Deed.outcome_path] at hpaths
    exact (hdeeds.nodup_paths hdeedsApart).sublist hpaths
  case requested =>
    intro unit hmem
    obtain ⟨d, hd, rfl⟩ := hunit unit hmem
    exact ⟨d.file, hrequest d hd, d.outcome_path.symm⟩
  case written =>
    intro file hfile hmem
    obtain ⟨d, hd, houtcome⟩ := hunit _ hmem
    obtain ⟨place, hleads, hcontent⟩ := heffect d hd
    have hpath : d.file.path = file.path := by
      rw [← d.outcome_path, houtcome]
    have hsame := eq_of_path_eq hrequested (hrequest d hd) hfile hleads hpath
    rcases d.outcome_status with ⟨-, hdone⟩ | ⟨hstatus, -⟩
    · rw [Deed.InEffect, hdone, hsame] at hcontent
      rw [hsame] at hleads
      exact World.read_eq_ok hleads hcontent
    · rw [houtcome] at hstatus
      cases hstatus
  case skipped =>
    intro unit hmem hskipped
    obtain ⟨d, hd, rfl⟩ := hunit unit hmem
    obtain ⟨place, hleads, hsame⟩ := heffect d hd
    rcases d.outcome_status with ⟨hstatus, -⟩ | ⟨-, hdone⟩
    · rw [hskipped] at hstatus
      cases hstatus
    · rw [Deed.InEffect, hdone] at hsame
      refine ⟨place, ?_, fun content => (hsame content).mp⟩
      rw [d.outcome_path]
      exact hleads

/-! ### Runs that lose nothing, and runs that do -/

/-- Two repositories that both declare `clear`; for the first one the use case was written by
hand. -/
def shop : World :=
  worldOf
    [ ([], "a", .directory), (["a"], "repositories", .directory), (["a"], "usecases", .directory),
      (["a", "repositories"], "cart_repository.dart", .file "Future<void> clear();\n".toUTF8),
      (["a", "usecases"], "clear_use_case.dart", .file "by hand".toUTF8),
      ([], "b", .directory),
      (["b"], "cart_repository.dart", .file "Future<int> clear();\n".toUTF8) ]

def shopOptions : GenerateOptions :=
  ⟨.professional, "shop", some "Cart", "core/error/failures.dart", none, false, false⟩

def shopPaths : List Path :=
  ["a/repositories/cart_repository.dart", "b/cart_repository.dart"]

theorem generate_shop_loses_no_unit :
    shopOptions.dryRun = false ∧
      (requests shopOptions shopPaths shop).Pairwise (Request.Apart shopOptions shop) ∧
      (∀ r ∈ requests shopOptions shopPaths shop, r.Unlinked shopOptions shop) ∧
      let run := (generate shopOptions shopPaths : Session GenerationReport) shop
      (run.1.units.map UnitOutcome.path).Nodup ∧
        (∀ unit ∈ run.1.units, ∃ file ∈ requestedFiles shopOptions shopPaths shop,
          file.path = unit.path) ∧
        (∀ file ∈ requestedFiles shopOptions shopPaths shop,
          (⟨file.path, .written⟩ : UnitOutcome) ∈ run.1.units →
            run.2.read file.path = .ok file.content.toUTF8) ∧
        ∀ unit ∈ run.1.units, unit.status = .skipped →
          ∃ place, run.2.target unit.path = .found place ∧ ∀ content,
            run.2.tree.find? place = some (.file content) →
              shop.tree.find? place = some (.file content) := by
  have hapart :
      (requests shopOptions shopPaths shop).Pairwise (Request.Apart shopOptions shop) := by
    decide +kernel
  have hunlinked : ∀ r ∈ requests shopOptions shopPaths shop, r.Unlinked shopOptions shop := by
    decide +kernel
  exact ⟨rfl, hapart, hunlinked,
    generate_loses_no_unit shopOptions shopPaths shop rfl hapart hunlinked⟩

/-- Options under which files that exist are replaced, or not. -/
def simpleOptions (force : Bool) : GenerateOptions :=
  ⟨.simple, "shop", some "Users", "core/error/failures.dart", none, false, force⟩

/-- The declaration files are different, and so are the names of the methods in each of them. -/
def HasDistinctMethods (o : GenerateOptions) (paths : List Path) (w : World) : Prop :=
  paths.Nodup ∧ ∀ path ∈ paths, ((requestsAt o w path).map fun r => r.method.name).Nodup

/-- The report names a path twice. -/
def ReportsTwice (o : GenerateOptions) (paths : List Path) (w : World) : Prop :=
  ¬(((generate o paths : Session GenerationReport) w).1.units.map UnitOutcome.path).Nodup

/-- A file that is reported as written has other content in the end than it was to have. -/
def LosesContent (o : GenerateOptions) (paths : List Path) (w : World) : Prop :=
  let run := (generate o paths : Session GenerationReport) w
  ∃ file ∈ requestedFiles o paths w, (⟨file.path, .written⟩ : UnitOutcome) ∈ run.1.units ∧
    run.2.read file.path ≠ .ok file.content.toUTF8

/-- A unit is skipped although nothing stood at its path before the run. -/
def SkipsOwn (o : GenerateOptions) (paths : List Path) (w : World) : Prop :=
  let run := (generate o paths : Session GenerationReport) w
  ∃ unit ∈ run.1.units, unit.status = .skipped ∧ w.kind? unit.path = none

section Decidable

variable (o : GenerateOptions) (paths : List Path) (w : World)

instance : Decidable (HasDistinctMethods o paths w) :=
  inferInstanceAs (Decidable (paths.Nodup ∧ ∀ path ∈ paths, List.Nodup _))

instance : Decidable (ReportsTwice o paths w) :=
  inferInstanceAs (Decidable (¬List.Nodup _))

instance : Decidable (LosesContent o paths w) :=
  inferInstanceAs (Decidable (∃ file ∈ requestedFiles o paths w, _ ∧ _))

instance : Decidable (SkipsOwn o paths w) :=
  inferInstanceAs (Decidable
    (∃ unit ∈ ((generate o paths : Session GenerationReport) w).1.units, _ ∧ _))

end Decidable

/-- Two methods whose names differ in the case of a letter. -/
def letterCase : World :=
  worldOf [([], "a_repository.dart",
    .file "Future<void> getUser();\nFuture<int> GetUser();\n".toUTF8)]

/-- Two declaration files with one output directory. -/
def neighbours : World :=
  worldOf [([], "a_repository.dart", .file "Future<void> get();\n".toUTF8),
    ([], "b_repository.dart", .file "Future<int> get();\n".toUTF8)]

/-- A link where a use case goes, to where another one goes. -/
def linked : World :=
  worldOf [([], "a_repository.dart", .file "Future<void> get();\nFuture<void> put();\n".toUTF8),
    ([], "usecases", .directory), (["usecases"], "get_use_case.dart", .link "put_use_case.dart")]

/-- Different names do not keep use cases apart: not within a declaration file, where one use case
replaces another or is skipped for it, not between two declaration files, and not where a link
stands. -/
theorem distinct_methods_lose_units :
    HasDistinctMethods (simpleOptions true) ["a_repository.dart"] letterCase ∧
    ReportsTwice (simpleOptions true) ["a_repository.dart"] letterCase ∧
    LosesContent (simpleOptions true) ["a_repository.dart"] letterCase ∧
    HasDistinctMethods (simpleOptions false) ["a_repository.dart"] letterCase ∧
    SkipsOwn (simpleOptions false) ["a_repository.dart"] letterCase ∧
    HasDistinctMethods (simpleOptions true) ["a_repository.dart", "b_repository.dart"] neighbours ∧
    ReportsTwice (simpleOptions true) ["a_repository.dart", "b_repository.dart"] neighbours ∧
    HasDistinctMethods (simpleOptions true) ["a_repository.dart"] linked ∧
    LosesContent (simpleOptions true) ["a_repository.dart"] linked := by
  decide +kernel

end UseCases.Project
