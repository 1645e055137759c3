import SchemaCompiler.Proofs.Traversal
import SchemaCompiler.Publication

/-!
# What a publication reports

The outputs of a publication are the texts of its models in their order and then that of the base type,
each with the path of its file. It has outputs when the emitter has a text for all of these types
(`renders_iff`). A plan that is not refused consists of them (`outputs_of_plan`), and a publication that
ends without a fault reports their paths, as does a dry run (`files_of_run`, `files_of_dryRun`).

Delivering files is making their directory and writing them (`deliver_cases`). Writing ends at the first
file that cannot be written (`exists_split_of_writeAll`).
-/

namespace SchemaCompiler

/-! ### Emitters -/

namespace Emitter

/-- An emitter has a text for every model and for the base type. -/
structure Total (emitter : Emitter) : Prop where
  /-- It has a text for every model. -/
  model : ∀ settings model, ∃ text, emitter.emitModel settings model = .ok text
  /-- It has a text for the base type. -/
  base : ∀ settings, ∃ text, emitter.emitBase settings = .ok text

theorem total_json : json.Total where
  model settings model := ⟨(model.descriptor settings).pretty, rfl⟩
  base settings := ⟨settings.baseDescriptor.pretty, rfl⟩

theorem total_outline : outline.Total where
  model settings model := ⟨Outline.ofModel settings model, rfl⟩
  base settings := ⟨Outline.ofBase settings, rfl⟩

end Emitter

namespace Publication

open Traversal

variable {p : Publication}

/-! ### Outputs -/

/-- The paths of the files of models. -/
def pathsOf (p : Publication) (models : List Model) : List Path :=
  models.map fun model => p.pathOf model.name

@[simp] theorem pathsOf_nil (p : Publication) : p.pathsOf [] = [] := rfl

theorem pathsOf_cons (p : Publication) (model : Model) (models : List Model) :
    p.pathsOf (model :: models) = p.pathOf model.name :: p.pathsOf models := rfl

/-- The files of a publication with their texts: those of the models in order, then that of the base
type. -/
def outputs (p : Publication) : Except EmissionFault (List (Path × String)) := do
  let files ← p.models.mapM p.outputOf
  let base ← p.baseOutput
  .ok (files ++ [base])

/-- The emitter has a text for a model. -/
def HasText (p : Publication) (model : Model) : Prop :=
  ∃ text, p.emitter.emitModel p.settings model = .ok text

/-- The emitter has a text for every output of a publication. -/
structure Renders (p : Publication) : Prop where
  /-- It has a text for every model. -/
  model : ∀ model ∈ p.models, p.HasText model
  /-- It has a text for the base type. -/
  base : ∃ text, p.emitter.emitBase p.settings = .ok text

theorem renders_of_total (h : p.emitter.Total) : p.Renders :=
  ⟨fun model _ => h.model p.settings model, h.base p.settings⟩

theorem outputOf_eq_ok_iff {model : Model} {file : Path × String} : p.outputOf model = .ok file ↔
    file.1 = p.pathOf model.name ∧ p.emitter.emitModel p.settings model = .ok file.2 := by
  obtain ⟨path, text⟩ := file
  rw [outputOf]
  cases p.emitter.emitModel p.settings model <;> simp [Except.map, eq_comm]

theorem baseOutput_eq_ok_iff {file : Path × String} : p.baseOutput = .ok file ↔
    file.1 = p.basePath ∧ p.emitter.emitBase p.settings = .ok file.2 := by
  obtain ⟨path, text⟩ := file
  rw [baseOutput]
  cases p.emitter.emitBase p.settings <;> simp [Except.map, eq_comm]

/-- There is no file of a model where there is no text. -/
theorem outputOf_eq_error_iff {model : Model} {cause : EmissionFault} :
    p.outputOf model = .error cause ↔ p.emitter.emitModel p.settings model = .error cause := by
  rw [outputOf]
  cases p.emitter.emitModel p.settings model <;> simp [Except.map]

theorem baseOutput_eq_error_iff {cause : EmissionFault} :
    p.baseOutput = .error cause ↔ p.emitter.emitBase p.settings = .error cause := by
  rw [baseOutput]
  cases p.emitter.emitBase p.settings <;> simp [Except.map]

theorem exists_outputOf_iff {model : Model} :
    (∃ file, p.outputOf model = .ok file) ↔ p.HasText model := by
  rw [HasText, outputOf]
  cases p.emitter.emitModel p.settings model <;> simp [Except.map]

theorem exists_baseOutput_iff :
    (∃ file, p.baseOutput = .ok file) ↔ ∃ text, p.emitter.emitBase p.settings = .ok text := by
  rw [baseOutput]
  cases p.emitter.emitBase p.settings <;> simp [Except.map]

theorem outputs_eq_ok_iff {files : List (Path × String)} : p.outputs = .ok files ↔
    ∃ models base, p.models.mapM p.outputOf = .ok models ∧ p.baseOutput = .ok base ∧
      models ++ [base] = files := by
  simp only [outputs, bind_eq_ok_iff, Except.ok.injEq]
  constructor
  · rintro ⟨models, hmodels, base, hbase, hfiles⟩
    exact ⟨models, base, hmodels, hbase, hfiles⟩
  · rintro ⟨models, base, hmodels, hbase, hfiles⟩
    exact ⟨models, hmodels, base, hbase, hfiles⟩

/-- There are outputs when there is a text for each of them. -/
theorem renders_iff : p.Renders ↔ ∃ files, p.outputs = .ok files := by
  constructor
  · rintro ⟨hmodels, hbase⟩
    obtain ⟨files, hfiles⟩ : ∃ files, p.models.mapM p.outputOf = .ok files := by
      rw [← fault?_eq_none_iff, fault?_mapM, List.findSome?_eq_none_iff]
      intro model hmodel
      rw [fault?_eq_none_iff]
      exact exists_outputOf_iff.mpr (hmodels model hmodel)
    obtain ⟨base, hbase⟩ := exists_baseOutput_iff.mpr hbase
    exact ⟨_, outputs_eq_ok_iff.mpr ⟨files, base, hfiles, hbase, rfl⟩⟩
  · rintro ⟨files, hfiles⟩
    obtain ⟨models, base, hmodels, hbase, -⟩ := outputs_eq_ok_iff.mp hfiles
    refine ⟨fun model hmodel => ?_, exists_baseOutput_iff.mp ⟨base, hbase⟩⟩
    obtain ⟨file, -, hfile⟩ := exists_of_mapM hmodels hmodel
    exact exists_outputOf_iff.mp ⟨file, hfile⟩

theorem paths_of_outputs {files : List (Path × String)} (h : p.outputs = .ok files) :
    files.map Prod.fst = p.pathsOf p.models ++ [p.basePath] := by
  obtain ⟨models, base, hmodels, hbase, rfl⟩ := outputs_eq_ok_iff.mp h
  rw [List.map_append, List.map_singleton, (baseOutput_eq_ok_iff.mp hbase).1,
    map_eq_of_mapM hmodels fun model file hfile => (outputOf_eq_ok_iff.mp hfile).1]
  rfl

/-! ### Plans -/

theorem outputs_of_planModels {taken : List Path} {models : List Model}
    {files : List (Path × String)} (h : p.planModels taken models = .ok files) :
    models.mapM p.outputOf = .ok files := by
  rw [mapM_eq_ok_iff]
  induction models generalizing taken files with
  | nil =>
    rw [planModels, Except.ok.injEq] at h
    rw [← h]
    exact .nil
  | cons model models ih =>
    simp only [planModels, bind_eq_ok_iff, Except.ok.injEq] at h
    obtain ⟨file, hfile, later, hlater, rfl⟩ := h
    rw [planModel] at hfile
    split_ifs at hfile
    exact .cons (mapError_eq_ok_iff.mp hfile) (ih hlater)

/-- A plan consists of the outputs. -/
theorem outputs_of_plan {files : List (Path × String)} (h : p.plan = .ok files) :
    p.outputs = .ok files := by
  simp only [plan, bind_eq_ok_iff, Except.ok.injEq] at h
  obtain ⟨models, hmodels, base, hbase, hfiles⟩ := h
  exact outputs_eq_ok_iff.mpr
    ⟨models, base, outputs_of_planModels hmodels, mapError_eq_ok_iff.mp hbase, hfiles⟩

/-! ### Writing -/

/-- Writing that ends without a fault writes the first file and then the others. -/
theorem exists_writeText_of_writeAll {disk : Disk} {file : Path × String}
    {files : List (Path × String)} (h : (writeAll disk (file :: files)).fault = none) :
    ∃ next, disk.writeText file.1 file.2 = .ok next ∧ (writeAll next files).fault = none ∧
      writeAll disk (file :: files) =
        { writeAll next files with files := file.1 :: (writeAll next files).files } := by
  obtain ⟨path, text⟩ := file
  rw [writeAll] at h ⊢
  cases hwrite : disk.writeText path text with
  | error fault => simp [hwrite] at h
  | ok next =>
    simp only [hwrite] at h ⊢
    exact ⟨next, rfl, h, rfl⟩

/-- Writing that ends without a fault reports all files. -/
theorem files_of_writeAll {disk : Disk} {files : List (Path × String)}
    (h : (writeAll disk files).fault = none) : (writeAll disk files).files = files.map Prod.fst := by
  induction files generalizing disk with
  | nil => rfl
  | cons file files ih =>
    obtain ⟨next, -, hlater, heq⟩ := exists_writeText_of_writeAll h
    rw [heq, List.map_cons, ih hlater]

/-- The outcome of writing that ends without a fault, but for the disk. -/
theorem writeAll_eq {disk : Disk} {files : List (Path × String)} (h : (writeAll disk files).fault = none) :
    writeAll disk files = ⟨(writeAll disk files).disk, files.map Prod.fst, none⟩ := by
  rw [← files_of_writeAll h, ← h]

/-- Writing that ends with a fault ends at the first file that cannot be written, and those before it are
written. -/
theorem exists_split_of_writeAll {disk : Disk} {files : List (Path × String)} {fault : PublicationFault}
    (h : (writeAll disk files).fault = some fault) :
    ∃ earlier file later cause, files = earlier ++ file :: later ∧
      (writeAll disk earlier).fault = none ∧
      (writeAll disk earlier).disk.writeText file.1 file.2 = .error cause ∧
      writeAll disk files =
        ⟨(writeAll disk earlier).disk, earlier.map Prod.fst, some (.unwritable file.1 cause)⟩ := by
  induction files generalizing disk with
  | nil => cases h
  | cons file files ih =>
    obtain ⟨path, text⟩ := file
    rw [writeAll] at h ⊢
    cases hwrite : disk.writeText path text with
    | error cause => exact ⟨[], (path, text), files, cause, rfl, rfl, hwrite, rfl⟩
    | ok next =>
      simp only [hwrite] at h ⊢
      obtain ⟨earlier, file, later, cause, rfl, hearlier, hfile, heq⟩ := ih h
      have hfirst : writeAll disk ((path, text) :: earlier) =
          { writeAll next earlier with files := path :: (writeAll next earlier).files } := by
        rw [writeAll, hwrite]
      refine ⟨(path, text) :: earlier, file, later, cause, rfl, ?_, ?_, ?_⟩
      · rw [hfirst, hearlier]
      · rw [hfirst, hfile]
      · rw [heq, hfirst]
        rfl

/-- Makes a directory and writes files to the disk. This is what a run does once its files are planned,
and it does so whatever their texts are. -/
def deliver (target : Path) (files : List (Path × String)) (disk : Disk) : PublicationOutcome :=
  match disk.makeDirectories target with
  | (made, some cause) => ⟨made, [], some (.unwritable target cause)⟩
  | (made, none) => writeAll made files

theorem run_of_plan {files : List (Path × String)} (h : p.plan = .ok files) (disk : Disk) :
    p.run disk = deliver p.target files disk := by
  rcases hmade : disk.makeDirectories p.target with ⟨made, _ | cause⟩ <;>
    simp only [run, h, deliver, hmade]

/-- What a run does: it has no plan, or it delivers its outputs. -/
theorem run_cases (p : Publication) (disk : Disk) :
    (∃ fault, p.plan = .error fault ∧ p.run disk = ⟨disk, [], some fault⟩) ∨
    ∃ files, p.plan = .ok files ∧ p.outputs = .ok files ∧
      p.run disk = deliver p.target files disk := by
  cases hplan : p.plan with
  | error fault => exact .inl ⟨fault, rfl, by rw [run, hplan]⟩
  | ok files => exact .inr ⟨files, rfl, outputs_of_plan hplan, run_of_plan hplan disk⟩

/-- What a delivery does: the directory cannot be made, or the files are written to a disk with it. -/
theorem deliver_cases (target : Path) (files : List (Path × String)) (disk : Disk) :
    (∃ made cause, disk.makeDirectories target = (made, some cause) ∧
      deliver target files disk = ⟨made, [], some (.unwritable target cause)⟩) ∨
    ∃ made, disk.makeDirectories target = (made, none) ∧
      deliver target files disk = writeAll made files := by
  rw [deliver]
  rcases disk.makeDirectories target with ⟨made, _ | cause⟩
  · exact .inr ⟨made, rfl, rfl⟩
  · exact .inl ⟨made, cause, rfl, rfl⟩

/-- A run without a fault has a plan, and delivers its outputs. -/
theorem run_eq_deliver {disk : Disk} (h : (p.run disk).fault = none) :
    ∃ files, p.plan = .ok files ∧ p.outputs = .ok files ∧
      p.run disk = deliver p.target files disk := by
  obtain ⟨fault, -, hrun⟩ | hdelivers := p.run_cases disk
  · simp [hrun] at h
  · exact hdelivers

/-- A delivery without a fault makes the directory and writes the files. -/
theorem exists_made_of_deliver {target : Path} {files : List (Path × String)} {disk : Disk}
    (h : (deliver target files disk).fault = none) :
    ∃ made, disk.makeDirectories target = (made, none) ∧
      deliver target files disk = writeAll made files := by
  obtain ⟨made, cause, -, hdeliver⟩ | hmade := deliver_cases target files disk
  · simp [hdeliver] at h
  · exact hmade

/-- A run without a fault has a plan, and writes its outputs to a disk with the directories. -/
theorem exists_writeAll_of_run {disk : Disk} (h : (p.run disk).fault = none) :
    ∃ files made, p.plan = .ok files ∧ p.outputs = .ok files ∧ p.run disk = writeAll made files := by
  obtain ⟨files, hplan, houtputs, hrun⟩ := run_eq_deliver h
  rw [hrun] at h ⊢
  obtain ⟨made, -, hdeliver⟩ := exists_made_of_deliver h
  exact ⟨files, made, hplan, houtputs, hdeliver⟩

theorem files_of_run {disk : Disk} (h : (p.run disk).fault = none) :
    (p.run disk).files = p.pathsOf p.models ++ [p.basePath] := by
  obtain ⟨files, made, -, houtputs, hrun⟩ := exists_writeAll_of_run h
  rw [hrun] at h ⊢
  rw [files_of_writeAll h, paths_of_outputs houtputs]

theorem files_of_dryRun {disk : Disk} (h : (p.dryRun disk).fault = none) :
    (p.dryRun disk).files = p.pathsOf p.models ++ [p.basePath] := by
  rw [dryRun] at h ⊢
  cases hplan : p.plan with
  | error fault => simp [hplan] at h
  | ok files => exact paths_of_outputs (outputs_of_plan hplan)

end Publication

end SchemaCompiler
