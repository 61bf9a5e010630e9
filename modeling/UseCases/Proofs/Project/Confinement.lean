/-
Where a run leaves its files.

The name of a generated file is made from the name of a method, and an identifier has no character
that leads out of a directory, nor do its case mappings.  So the name is one step of a path, and where
no link stands the file lies directly in the output directory of its declaration file.

The directories that a run makes are those that the output path or a beginning of it leads to.  They
lie on the way to the output directory if the path goes up only from what exists, as every derived
output path does.  A path that goes up from a directory that is missing has it made, and leaves it
beside the files.
-/
import UseCases.Proofs.Files.Linkless
import UseCases.Proofs.Files.Paving
import UseCases.Proofs.Project.Preservation

namespace UseCases.Project

open Dart Declaration Files Generation Report

variable {o : GenerateOptions} {w u v x : World} {path folder : Path} {location : Location}
  {tries : List Try}

/-! ### Names -/

/-- The name is one step of a path, and not the name of a declaration file. -/
structure IsUnitName (name : String) : Prop where
  plain : IsPlain name
  slash : '/' ∉ name.toList
  nul : '\x00' ∉ name.toList
  undeclared : Text.endsWith declarationSuffix.toList name.toList = false

theorem isUnitName_of_mem_units {method : Method} {base repository : String} {mode : Mode}
    {context : ImportContext} (hbase : isIdentifier base.toList = true) {unit : GeneratedUnit}
    (h : unit ∈ units method base repository mode context) : IsUnitName unit.fileName := by
  have hchars : unit.fileName.toList.all isFileChar = true := by
    rcases fileName_of_mem_units h with hname | hname <;> rw [hname]
    · exact all_isFileChar_fileName (isIdentifier_useCaseType hbase)
    · exact all_isFileChar_fileName (isIdentifier_paramsType hbase)
  have hfree : ∀ c, isFileChar c = false → c ∉ unit.fileName.toList := by
    intro c hc hmem
    rw [List.all_eq_true.mp hchars c hmem] at hc
    cases hc
  refine ⟨?plain, hfree '/' (by decide), hfree '\x00' (by decide), endsWith_fileName h⟩
  rcases fileName_of_mem_units h with hname | hname <;> rw [hname] <;> exact isPlain_fileName _

/-- **The files of a method share a stem**, which the use case and the holder of its arguments end
differently. -/
theorem map_fileName_units (method : Method) (base repository : String) (mode : Mode)
    (context : ImportContext) :
    (units method base repository mode context).map (fun unit => unit.fileName.toList) =
      (fileStem base ++ "use_case.dart".toList) ::
        if mode.hasParams then [fileStem base ++ "params.dart".toList] else [] := by
  rw [units, List.map_cons]
  refine congrArg₂ List.cons (toList_fileName_useCaseType base) ?_
  split
  · exact congrArg (fun name => [name]) (toList_fileName_paramsType base)
  · rfl

theorem nodup_fileName_units (method : Method) (base repository : String) (mode : Mode)
    (context : ImportContext) :
    ((units method base repository mode context).map GeneratedUnit.fileName).Nodup := by
  cases mode with
  | simple => exact List.nodup_singleton _
  | professional =>
      have hne : fileName (useCaseType base) ∉ [fileName (paramsType base)] := by
        simpa using fileName_useCaseType_ne base base
      exact List.nodup_cons.mpr ⟨hne, List.nodup_singleton _⟩

/-! ### Directories -/

/-- Writing a file in a folder makes directories on the way to the folder. -/
theorem OutputFile.paving {f : OutputFile} {name : String} (hplain : IsPlain name)
    (hslash : '/' ∉ name.toList) (hpath : f.path = folder.join name) :
    Paving (Path.Begins · folder) f.write := by
  have hprepare : Paving (Path.Begins · folder) f.prepare := by
    refine holds_prepare composes_paving fun parent hparent => ?_
    rw [hpath] at hparent
    exact (paving_makeDirectories parent).mono fun q hq =>
      hq.trans (.of_parent?_join hplain hslash hparent)
  have hstore : Paving (Path.Begins · folder) f.store :=
    holds_store composes_paving hprepare (paving_write _ _)
  exact holds_write composes_paving (onlyLogs_kind? _).paving
    (fun record => (onlyLogs_log record).paving) hstore

theorem Trail.paves {way : Path → Prop} (h : Trail w tries v)
    (hfiles : ∀ a ∈ tries, Paving way a.file.write) : w.Paves (w.LiesOn way) v := by
  induction h with
  | nil still => exact still.paves
  | cons still wrote rest ih =>
      have hfirst := (hfiles _ List.mem_cons_self).paves wrote
      have hrest := ih fun a ha => hfiles a (List.mem_cons_of_mem _ ha)
      exact (still.paves.along hfirst).along hrest

/-- Each file of a request lies in the output directory by its path. -/
theorem exists_unit_of_mem_files {r : Request} (hr : r ∈ requestsAt o w path) {f : OutputFile}
    (hf : f ∈ r.files o) :
    ∃ unit ∈ r.units o, f = r.file o unit ∧ f.path = (o.outputFor path).join unit.fileName ∧
      IsUnitName unit.fileName := by
  rw [Request.files_eq] at hf
  obtain ⟨unit, hunit, rfl⟩ := List.mem_map.mp hf
  refine ⟨unit, hunit, rfl, ?_, isUnitName_of_mem_units (isIdentifier_of_mem_requestsAt hr) hunit⟩
  rw [Request.file, declaration_of_mem_requestsAt hr]

/-- The output path that is given goes up only from what exists. -/
def GenerateOptions.IsGrounded (o : GenerateOptions) (w : World) : Prop :=
  ∀ given ∈ o.output, Grounded w.tree w.cwd given

instance (o : GenerateOptions) (w : World) : Decidable (o.IsGrounded w) :=
  inferInstanceAs (Decidable (∀ given ∈ o.output, Grounded w.tree w.cwd given))

/-- The location is where the output path of a declaration file or a beginning of it leads.  It is the
output directory or lies above it, if the output path that is given goes up only from what exists. -/
structure IsOnWay (o : GenerateOptions) (w : World) (declaration : Path) (location : Location) :
    Prop where
  beginning : w.LiesOn (Path.Begins · (o.outputFor declaration)) location
  above : o.IsGrounded w → ∃ folder,
    destination w.tree w.cwd (o.outputFor declaration) = some folder ∧ location <+: folder

theorem IsOnWay.earlier {touched : Location → Prop} (h : IsOnWay o u path location)
    (hchanges : w.Changes touched u) : IsOnWay o w path location where
  beginning := hchanges.liesOn_iff.mp h.beginning
  above hgrounded := by
    have habove := h.above fun given hgiven => by
      rw [hchanges.cwd]
      exact (hgrounded given hgiven).mono hchanges.grown
    rw [hchanges.cwd, destination_extends hchanges.grown] at habove
    exact habove

/-- A part of a run makes directories on the way to its output directory. -/
theorem Part.Ran.paves {part : Part} (h : part.Ran o w v) : w.Paves (IsOnWay o w part.path) v := by
  cases htries : part.tries with
  | nil =>
      have hnothing := h.trail
      rw [htries] at hnothing
      cases hnothing with
      | nil still => exact still.paves
  | cons a rest =>
      obtain ⟨r, hr, -⟩ := h.request_of_mem_tries (a := a) (by rw [htries]; simp)
      have hway : w.Paves (w.LiesOn (Path.Begins · (o.outputFor part.path))) v := by
        refine h.trail.paves fun b hb => ?_
        obtain ⟨s, hs, hfile⟩ := h.request_of_mem_tries hb
        obtain ⟨unit, -, -, hpath, hname⟩ := exists_unit_of_mem_files hs hfile
        exact OutputFile.paving hname.plain hname.slash hpath
      refine hway.mono fun location hmissing hlies => ⟨hlies, fun hgrounded => ?_⟩
      exact hlies.prefix_of_grounded (grounded_outputFor hgrounded hr) hmissing

theorem Course.paves {parts : List Part} (h : Course o w parts v) :
    w.Paves (fun location => ∃ part ∈ parts, IsOnWay o w part.path location) v := by
  induction h with
  | nil w => exact World.Paves.refl w
  | @cons w u v part parts ran rest ih =>
      have hfirst := ran.paves
      refine World.Paves.trans (hfirst.mono fun location _ hway => ?_)
        (ih.mono fun location _ hway => ?_)
      · exact ⟨part, List.mem_cons_self, hway⟩
      · obtain ⟨other, hother, hway⟩ := hway
        exact ⟨other, List.mem_cons_of_mem _ hother, hway.earlier hfirst.toChanges⟩

/-! ### Files -/

theorem Course.ran_of_mem {parts : List Part} (h : Course o w parts v) {part : Part}
    (hpart : part ∈ parts) : ∃ u x, part.Ran o u x := by
  induction h with
  | nil w => cases hpart
  | cons ran rest ih =>
      rcases List.mem_cons.mp hpart with rfl | hpart
      · exact ⟨_, _, ran⟩
      · exact ih hpart

/-- A file that a run wrote lies in the output directory of its declaration file. -/
theorem Course.folder_of_wroteAt {parts : List Part} (h : Course o w parts v)
    (hlinkless : w.tree.Linkless) {a : Try} (ha : a ∈ parts.flatMap Part.tries)
    (hwrote : a.WroteAt v location) :
    ∃ part ∈ parts, ∃ folder name,
      destination w.tree w.cwd (o.outputFor part.path) = some folder ∧ IsUnitName name ∧
        location = folder ++ [name] := by
  obtain ⟨part, hpart, ha⟩ := List.mem_flatMap.mp ha
  obtain ⟨u, x, hran⟩ := h.ran_of_mem hpart
  obtain ⟨r, hr, hfile⟩ := hran.request_of_mem_tries ha
  obtain ⟨unit, hunit, -, hpath, hname⟩ := exists_unit_of_mem_files hr hfile
  have hchanges := h.trail.changes
  have hplace : destination w.tree w.cwd a.file.path = some location := by
    refine destination_of_lookup hchanges.grown (show Purpose.target ≠ .entry by decide) ?_
    rw [← hchanges.cwd]
    exact hwrote.2
  rw [hpath] at hplace
  obtain ⟨folder, hfolder, hlocation⟩ := destination_file hname.plain hname.slash hplace
  exact ⟨part, hpart, folder, unit.fileName, hfolder, hname, hlocation (hlinkless _)⟩

/-! ### Runs -/

/-- What may differ at a location after a run, on account of a declaration file. -/
inductive Confined (o : GenerateOptions) (w v : World) (declaration : Path) (location : Location) :
    Prop where
  /-- There is a file directly in the output directory. -/
  | file {folder : Location} {name : String} {content : ByteArray}
      (hfolder : destination w.tree w.cwd (o.outputFor declaration) = some folder)
      (hname : IsUnitName name) (hlocation : location = folder ++ [name])
      (hfile : v.tree.find? location = some (.file content))
  /-- There is a new directory, on the way to the output directory. -/
  | directory (hmissing : w.tree.find? location = none)
      (hdirectory : v.tree.find? location = some .directory)
      (hway : IsOnWay o w declaration location)

theorem confined_of_runAll (hlinkless : w.tree.Linkless) (o : GenerateOptions)
    (paths : List Path)
    (hdiffers : (runAll o paths w).2.tree.find? location ≠ w.tree.find? location) :
    ∃ declaration ∈ paths, Confined o w (runAll o paths w).2 declaration location := by
  cases hdry : o.dryRun with
  | true =>
      rw [(onlyLogs_runAll hdry paths w).tree] at hdiffers
      exact absurd rfl hdiffers
  | false =>
      obtain ⟨parts, hcourse, hpaths, -, -⟩ := course_of_runAll hdry paths w
      have hmem : ∀ part ∈ parts, part.path ∈ paths := by
        intro part hpart
        rw [← hpaths]
        exact List.mem_map_of_mem hpart
      rcases hcourse.trail.changes.cases_of_ne hdiffers with
        ⟨hmissing, hdirectory⟩ | ⟨⟨a, ha, hwrote⟩, content, hfile⟩
      · obtain ⟨part, hpart, hway⟩ := hcourse.paves.directories _ hmissing hdirectory
        exact ⟨part.path, hmem part hpart, .directory hmissing hdirectory hway⟩
      · obtain ⟨part, hpart, folder, name, hfolder, hname, hlocation⟩ :=
          hcourse.folder_of_wroteAt hlinkless ha hwrote
        exact ⟨part.path, hmem part hpart, .file hfolder hname hlocation hfile⟩

/-- **Generated files stay in the output directory, whatever the source says.**  The files of a method
have one stem, which the use case ends in `use_case.dart` and the holder of its arguments in
`params.dart`, and their names are single steps of a path that name no declaration file.  Where no
link stands, a run changes the tree at two kinds of places only: directly in the output directory of
one of its declaration files, where it leaves a file, and where the output path or a beginning of it
leads, where it makes a directory.  Such a directory is the output directory or lies above it, if the
output path that is given goes up only from what exists. -/
theorem generate_confined (hlinkless : w.tree.Linkless) (o : GenerateOptions)
    (paths : List Path) :
    (∀ source : String, ∀ method ∈ (extract source).methods, ∀ (repository : String) (mode : Mode)
      (context : ImportContext),
      let produced := units method method.name repository mode context
      (∃ stem, produced.map (fun unit => unit.fileName.toList) =
        (stem ++ "use_case.dart".toList) ::
          if mode.hasParams then [stem ++ "params.dart".toList] else []) ∧
      (produced.map GeneratedUnit.fileName).Nodup ∧
      ∀ unit ∈ produced, IsUnitName unit.fileName) ∧
    ∀ location,
      ((generate o paths : Session GenerationReport) w).2.tree.find? location ≠
        w.tree.find? location →
      ∃ declaration ∈ paths,
        Confined o w ((generate o paths : Session GenerationReport) w).2 declaration location := by
  constructor
  · intro source method hmethod repository mode context produced
    refine ⟨⟨_, map_fileName_units method method.name repository mode context⟩, ?_, fun unit hunit =>
      isUnitName_of_mem_units (isIdentifier_of_mem_methods hmethod) hunit⟩
    exact nodup_fileName_units method method.name repository mode context
  · exact fun location => confined_of_runAll hlinkless o paths

/-! ### Output paths that are not there -/

/-- A project of one declaration file. -/
def loneCart : World :=
  worldOf
    [ ([], "a_repository.dart",
        .file "abstract class CartRepository \x7b\n  Future<void> get();\n\x7d\n".toUTF8) ]

theorem generate_loneCart_confined :
    let o := keepingOptions "new/deep"
    let run := (generate o ["a_repository.dart"] : Session GenerationReport) loneCart
    (loneCart.tree.Linkless ∧ o.IsGrounded loneCart) ∧
    ∀ location ∈ [["app", "new"], ["app", "new", "deep"], ["app", "new", "deep", "get_use_case.dart"]],
      loneCart.tree.find? location = none ∧ run.2.tree.find? location ≠ none ∧
        ∃ declaration ∈ ["a_repository.dart"], Confined o loneCart run.2 declaration location := by
  intro o run
  have hlinkless : loneCart.tree.Linkless := by decide +kernel
  have hgrounded : o.IsGrounded loneCart := by decide +kernel
  have hnew : ∀ location ∈
      [["app", "new"], ["app", "new", "deep"], ["app", "new", "deep", "get_use_case.dart"]],
      loneCart.tree.find? location = none ∧ run.2.tree.find? location ≠ none := by
    decide +kernel
  refine ⟨⟨hlinkless, hgrounded⟩, fun location hlocation => ?_⟩
  obtain ⟨hmissing, hthere⟩ := hnew location hlocation
  have hdiffers : run.2.tree.find? location ≠ loneCart.tree.find? location := by
    rw [hmissing]
    exact hthere
  exact ⟨hmissing, hthere,
    (generate_confined hlinkless o ["a_repository.dart"]).2 location hdiffers⟩

/-- An output path that goes up from a missing directory: it leads to the working directory, and a new
directory is left in it. -/
theorem climbing_output_makes_directory :
    let o := keepingOptions "new/.."
    let run := (generate o ["a_repository.dart"] : Session GenerationReport) loneCart
    loneCart.tree.Linkless ∧ loneCart.tree.find? ["app", "new"] = none ∧
      run.2.tree.isDirectory ["app", "new"] = true ∧
      run.2.target (o.outputFor "a_repository.dart") = .found ["app"] ∧
      ¬["app", "new"] <+: ["app"] := by
  decide +kernel

end UseCases.Project
