import SchemaCompiler.Disk.Files
import SchemaCompiler.Emission.Emitter
import SchemaCompiler.Log.Notice

/-!
# Publication

Writing models to a directory: one file for each model and one for the base type, all of them in
the directory of the namespace.

## The model

Every file is planned before anything is written. The path of the base type is taken first. Then each
model in order takes its path and is turned into text, and the base type is turned into text last. A
model whose path is taken already, by spelling, ends the run, and so does a type that the emitter has
no text for. Files are written in the order of the models, the base type last. The first that cannot
be written ends the run, and what was written before it stays. A dry run only plans.
-/

namespace SchemaCompiler

/-- The directory of the files of a namespace: its segments below `dir`. -/
def Settings.directory (settings : Settings) (dir : Path) : Path :=
  settings.segments.foldl Path.join dir

/-- Why models cannot be written. -/
inductive PublicationFault where
  /-- A model has the path of another file of the run. -/
  | collision (path : Path) (name : String)
  /-- The emitter has no text for a type. -/
  | unemitted (fault : EmissionFault)
  /-- A file or directory cannot be written. -/
  | unwritable (path : Path) (fault : FileFault)
  deriving DecidableEq, Repr

/-- The wording of a fault. -/
def PublicationFault.message : PublicationFault → String
  | collision path name =>
    "refusing to write '" ++ path.text ++ "' twice: '" ++ name ++ "' collides with another output"
  | unemitted fault => fault.message
  | unwritable path fault => "failed to write '" ++ path.text ++ "': " ++ fault.message

/-- What is to be written, and how. -/
structure Publication where
  /-- The directory that holds the directories of namespaces. -/
  dir : Path
  /-- The settings of the run. -/
  settings : Settings
  /-- The form of the files. -/
  emitter : Emitter
  /-- The models in order. -/
  models : List Model

/-- What a publication did. -/
structure PublicationOutcome where
  /-- The disk afterwards. -/
  disk : Disk
  /-- The files that were written, or would be in a dry run, in order. -/
  files : List Path
  /-- Why the run ended early. -/
  fault : Option PublicationFault

namespace Publication

/-- The directory that the files go to. -/
def target (p : Publication) : Path :=
  p.settings.directory p.dir

/-- The path of the file of a type. -/
def pathOf (p : Publication) (name : String) : Path :=
  p.target.join (name ++ "." ++ p.emitter.extension)

/-- The path of the file of the base type. -/
def basePath (p : Publication) : Path :=
  p.pathOf p.settings.baseType

/-- The file of a model with its text. -/
def outputOf (p : Publication) (model : Model) : Except EmissionFault (Path × String) :=
  (p.emitter.emitModel p.settings model).map (p.pathOf model.name, ·)

/-- The file of the base type with its text. -/
def baseOutput (p : Publication) : Except EmissionFault (Path × String) :=
  (p.emitter.emitBase p.settings).map (p.basePath, ·)

/-- The file of a model with its text, when the paths `taken` belong to other files. -/
def planModel (p : Publication) (taken : List Path) (model : Model) :
    Except PublicationFault (Path × String) :=
  let path := p.pathOf model.name
  if taken.any path.same then .error (.collision path model.name)
  else (p.outputOf model).mapError .unemitted

/-- The files of models with their texts, when the paths `taken` belong to other files. -/
def planModels (p : Publication) (taken : List Path) :
    List Model → Except PublicationFault (List (Path × String))
  | [] => .ok []
  | model :: models => do
    let file ← p.planModel taken model
    let files ← p.planModels (file.1 :: taken) models
    .ok (file :: files)

/-- The files of a publication with their texts, in the order in which they are written. -/
def plan (p : Publication) : Except PublicationFault (List (Path × String)) := do
  let files ← p.planModels [p.basePath] p.models
  let base ← p.baseOutput.mapError .unemitted
  .ok (files ++ [base])

/-- Writes files in order up to the first that cannot be written. -/
def writeAll (disk : Disk) : List (Path × String) → PublicationOutcome
  | [] => ⟨disk, [], none⟩
  | (path, text) :: files =>
    match disk.writeText path text with
    | .error fault => ⟨disk, [], some (.unwritable path fault)⟩
    | .ok disk =>
      let outcome := writeAll disk files
      { outcome with files := path :: outcome.files }

/-- Carries out a publication. -/
def run (p : Publication) (disk : Disk) : PublicationOutcome :=
  match p.plan with
  | .error fault => ⟨disk, [], some fault⟩
  | .ok files =>
    match disk.makeDirectories p.target with
    | (disk, some fault) => ⟨disk, [], some (.unwritable p.target fault)⟩
    | (disk, none) => writeAll disk files

/-- What a publication would write. -/
def dryRun (p : Publication) (disk : Disk) : PublicationOutcome :=
  match p.plan with
  | .error fault => ⟨disk, [], some fault⟩
  | .ok files => ⟨disk, files.map Prod.fst, none⟩

/-- What there is to say about a run with an outcome. -/
def notices (outcome : PublicationOutcome) : List Notice :=
  outcome.files.map fun path => .wrote path.text

/-- What there is to say about a dry run with an outcome. -/
def dryNotices (p : Publication) (outcome : PublicationOutcome) : List Notice :=
  if outcome.fault.isNone then [.nothingWritten p.target.text outcome.files.length] else []

end Publication

end SchemaCompiler
