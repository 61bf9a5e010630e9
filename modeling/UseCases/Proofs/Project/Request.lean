/-
The files that a run is asked for.

The file of a use case is named after its method, and a method has the name of an identifier, so the
name of the file is one step of its path.
-/
import UseCases.Proofs.Declaration.Accounting
import UseCases.Proofs.Declaration.Header
import UseCases.Proofs.Files.Ground
import UseCases.Proofs.Generation.Naming
import UseCases.Proofs.Project.Run

namespace UseCases.Project

open Dart Declaration Files Generation Report

/-! ### The names of generated files -/

theorem isPlain_fileName (type : String) : IsPlain (fileName type) := by
  have hlength : 5 ≤ (fileName type).toList.length := by
    rw [fileName, String.toList_append, List.length_append]
    exact Nat.le_add_left 5 _
  refine ⟨?_, ?_⟩
  · intro h
    rcases h with h | h <;> rw [h] at hlength <;> simp at hlength
  · intro h
    rw [h] at hlength
    simp at hlength

theorem slash_notMem_fileName {type : String} (h : isIdentifier type.toList = true) :
    '/' ∉ (fileName type).toList := by
  intro hslash
  have hchar := List.all_eq_true.mp (all_isFileChar_fileName h) '/' hslash
  exact absurd hchar (by decide)

/-- The type that a unit declares. -/
theorem fileName_of_mem_units {method : Method} {base repository : String} {mode : Mode}
    {context : ImportContext} {unit : GeneratedUnit}
    (h : unit ∈ units method base repository mode context) :
    unit.fileName = fileName (useCaseType base) ∨ unit.fileName = fileName (paramsType base) := by
  rw [units] at h
  rcases List.mem_cons.mp h with rfl | h
  · exact Or.inl rfl
  · split at h
    · rw [List.mem_singleton.mp h]
      exact Or.inr rfl
    · cases h

/-- The name of a generated file is not that of a declaration file. -/
theorem endsWith_fileName {method : Method} {base repository : String} {mode : Mode}
    {context : ImportContext} {unit : GeneratedUnit}
    (h : unit ∈ units method base repository mode context) :
    Text.endsWith declarationSuffix.toList unit.fileName.toList = false := by
  -- both endings would be endings of the name, and the shorter one of the longer one
  have hending : ∀ stem ending : List Char, ending.length ≤ declarationSuffix.toList.length →
      ¬ending <:+ declarationSuffix.toList →
      Text.endsWith declarationSuffix.toList (stem ++ ending) = false := by
    intro stem ending hlength hdifferent
    rw [Text.endsWith, Bool.eq_false_iff]
    intro hends
    exact hdifferent (List.suffix_of_suffix_length_le (List.suffix_append stem ending)
      (List.isSuffixOf_iff_suffix.mp hends) hlength)
  rcases fileName_of_mem_units h with hname | hname <;> rw [hname]
  · rw [toList_fileName_useCaseType]
    exact hending _ _ (by decide) (by decide)
  · rw [toList_fileName_paramsType]
    exact hending _ _ (by decide) (by decide)

namespace Request

/-- The units of the use case that is requested. -/
def units (o : GenerateOptions) (r : Request) : List GeneratedUnit :=
  Generation.units r.method r.method.name r.repository o.mode (o.contextFor r.declaration)

/-- The file of a unit. -/
def file (o : GenerateOptions) (r : Request) (unit : GeneratedUnit) : OutputFile :=
  ⟨(o.outputFor r.declaration).join unit.fileName, unit.content, o.overwrite⟩

theorem files_eq (o : GenerateOptions) (r : Request) : r.files o = (r.units o).map (r.file o) := by
  rw [files, GenerateOptions.filesFor, List.flatMap_cons, List.flatMap_nil, List.append_nil]
  rfl

variable {o : GenerateOptions} {r : Request} {w : World}

/-- The name of the file of a unit is one step of a path. -/
theorem isPlain_of_mem_units (hname : isIdentifier r.method.name.toList = true)
    {unit : GeneratedUnit} (hunit : unit ∈ r.units o) :
    IsPlain unit.fileName ∧ '/' ∉ unit.fileName.toList := by
  rcases fileName_of_mem_units hunit with hu | hu <;> rw [hu]
  · exact ⟨isPlain_fileName _, slash_notMem_fileName (isIdentifier_useCaseType hname)⟩
  · exact ⟨isPlain_fileName _, slash_notMem_fileName (isIdentifier_paramsType hname)⟩

/-- The directory that the files of a request go to, if the directories on its way are made. -/
def folder (o : GenerateOptions) (w : World) (r : Request) : Option Location :=
  destination w.tree w.cwd (o.outputFor r.declaration)

/-- The file of a unit goes to the directory of its request, or where a link there leads. -/
theorem folder_of_destination (hname : isIdentifier r.method.name.toList = true)
    {unit : GeneratedUnit} (hunit : unit ∈ r.units o) {place : Location}
    (hplace : destination w.tree w.cwd (r.file o unit).path = some place) :
    ∃ folder, r.folder o w = some folder ∧
      (w.tree.IsUnlinked (folder ++ [unit.fileName]) → place = folder ++ [unit.fileName]) := by
  obtain ⟨hplain, hslash⟩ := isPlain_of_mem_units hname hunit
  exact destination_file hplain hslash hplace

end Request

/-! ### Methods and declaration files -/

variable {o : GenerateOptions} {w v : World}

/-- A method has the name of an identifier. -/
theorem isIdentifier_of_mem_methods {source : String} {m : Method}
    (h : m ∈ (extract source).methods) : isIdentifier m.name.toList = true := by
  obtain ⟨shape, number, line, dropped, hdeclared⟩ := declared_of_mem_methods h
  exact isIdentifier_of_readDeclaration hdeclared

theorem isIdentifier_of_mem_requestsAt {path : Path} {r : Request} (h : r ∈ requestsAt o w path) :
    isIdentifier r.method.name.toList = true := by
  obtain ⟨d, -, method, hmethod, rfl⟩ := exists_of_mem_requestsAt h
  exact isIdentifier_of_mem_methods hmethod

theorem isIdentifier_of_mem_requests {paths : List Path} {r : Request}
    (h : r ∈ requests o paths w) :
    isIdentifier r.method.name.toList = true := by
  induction paths generalizing w with
  | nil => cases h
  | cons path paths ih =>
      rcases List.mem_append.mp h with h | h
      · exact isIdentifier_of_mem_requestsAt h
      · exact ih h

/-- The files that a run is asked for. -/
def requestedFiles (o : GenerateOptions) (paths : List Path) (w : World) : List OutputFile :=
  (requests o paths w).flatMap (Request.files o)

theorem declaration_of_mem_requestsAt {path : Path} {r : Request} (h : r ∈ requestsAt o w path) :
    r.declaration = path := by
  obtain ⟨d, -, method, -, rfl⟩ := exists_of_mem_requestsAt h
  rfl

/-! ### Output directories -/

/-- The directory beside a path that leads somewhere goes up only from what exists. -/
theorem grounded_defaultOutput {path : Path} {place : Location}
    (h : w.target path = .found place) :
    Grounded w.tree w.cwd (defaultOutput path) := by
  have hjoin : ∀ folder : Path, Grounded w.tree w.cwd folder →
      Grounded w.tree w.cwd (folder.join useCasesDirectory) :=
    fun folder hfolder => hfolder.join ⟨by decide, by decide⟩ (by decide)
  have hparent : Grounded w.tree w.cwd (path.parent?.getD "") := by
    cases hparent : path.parent? with
    | none => exact grounded_of_notMem (by decide)
    | some parent =>
        obtain ⟨hstart, hsteps⟩ := parent?_steps hparent
        exact (grounded_of_found h).of_start hstart hsteps
  unfold defaultOutput
  simp only
  split
  · rename_i grandparent _ hgrandparent
    obtain ⟨hstart, hsteps⟩ := parent?_steps hgrandparent
    exact hjoin _ (hparent.of_start hstart hsteps)
  · exact hjoin _ hparent

/-- The output directory of a request goes up only from what exists, if the one that is given
does. -/
theorem grounded_outputFor (houtput : ∀ folder ∈ o.output, Grounded w.tree w.cwd folder)
    {path : Path} {r : Request} (hr : r ∈ requestsAt o w path) :
    Grounded w.tree w.cwd (o.outputFor path) := by
  rw [GenerateOptions.outputFor]
  cases hgiven : o.output with
  | some folder => exact houtput folder hgiven
  | none =>
      obtain ⟨d, hopen, -⟩ := exists_of_mem_requestsAt hr
      obtain ⟨bytes, hbytes⟩ := read_of_readText (openAt_eq_ok_iff.mp hopen).1
      obtain ⟨place, hplace, -⟩ := World.file_of_read hbytes
      rw [Option.getD_none]
      exact grounded_defaultOutput hplace

/-- The path of a requested file goes up only from what exists, if the output directory that is
given does. -/
theorem grounded_of_mem_files (houtput : ∀ folder ∈ o.output, Grounded w.tree w.cwd folder)
    {path : Path} {r : Request} (hr : r ∈ requestsAt o w path) {f : OutputFile}
    (hf : f ∈ r.files o) :
    Grounded w.tree w.cwd f.path := by
  rw [Request.files_eq] at hf
  obtain ⟨unit, hunit, rfl⟩ := List.mem_map.mp hf
  obtain ⟨hplain, hslash⟩ := Request.isPlain_of_mem_units (isIdentifier_of_mem_requestsAt hr) hunit
  refine Grounded.join ?_ hplain hslash
  rw [declaration_of_mem_requestsAt hr]
  exact grounded_outputFor houtput hr

/-! ### Worlds to run in -/

/-- A world of these entries, each with its directory and its name. -/
def worldOf (entries : List (Location × String × Files.Entry)) : World :=
  entries.foldl (fun w e => w.add ("app" :: e.1) e.2.1 e.2.2) (World.empty "app")

end UseCases.Project
