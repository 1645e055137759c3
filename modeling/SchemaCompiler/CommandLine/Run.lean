import SchemaCompiler.CommandLine.Arguments
import SchemaCompiler.CommandLine.Failure
import SchemaCompiler.Emission.TypeTable
import SchemaCompiler.Generation
import SchemaCompiler.Glob
import SchemaCompiler.Log.Filter
import SchemaCompiler.Log.Line

/-!
# Runs

What a run of the program does to a disk, what it prints, and how it ends.

All inputs are resolved to paths before the first is read. Then each file is a run of its own: it is
loaded, compiled, and its models are written or printed before the next file is read. The first
failure ends the run; what was printed and written until then stays.
-/

namespace SchemaCompiler.CommandLine

/-- What a run has done so far. -/
structure Session where
  /-- The disk. -/
  disk : Disk
  /-- What the log shows. -/
  filter : Filter
  /-- The output. -/
  output : String := ""
  /-- The log and other messages. -/
  messages : String := ""

namespace Session

/-- Adds a line to the output. -/
def print (session : Session) (text : String) : Session :=
  { session with output := session.output ++ text ++ "\n" }

/-- Adds a line to the messages. -/
def tell (session : Session) (text : String) : Session :=
  { session with messages := session.messages ++ text ++ "\n" }

/-- Logs the notices that the filter allows. -/
def log (session : Session) (notices : List Notice) : Session :=
  (notices.filter session.filter.allows).foldl (fun s notice => s.tell notice.line) session

end Session

/-- What a step of a run comes to: what has been done, and the failure that ends the run. -/
abbrev Step := Session × Option Failure

/-! ### Inputs -/

/-- The paths that an input stands for. A text without wildcards is a path, whether or not there is
such a file. -/
def resolveInput (disk : Disk) (input : String) : Except Failure (List Path) :=
  if Glob.hasWildcard input then
    match Glob.expand disk input with
    | .error fault => .error ⟨fault.message, []⟩
    | .ok [] => .error ⟨"glob pattern matched no files: " ++ input, []⟩
    | .ok paths => .ok paths
  else .ok [⟨input⟩]

/-- The paths that inputs stand for, in order. -/
def resolveInputs (disk : Disk) : List String → Except Failure (List Path)
  | [] => .ok []
  | input :: inputs => do
    let paths ← resolveInput disk input
    let later ← resolveInputs disk inputs
    .ok (paths ++ later)

/-- Goes through paths in order, up to the first failure. -/
def forPaths (visit : Session → Path → Step) : Session → List Path → Step
  | session, [] => (session, none)
  | session, path :: paths =>
    match visit session path with
    | (session, none) => forPaths visit session paths
    | failed => failed

/-- Visits the files that inputs stand for. -/
def forInputs (visit : Session → Path → Step) (session : Session) (inputs : List String) : Step :=
  match resolveInputs session.disk inputs with
  | .error failure => (session, some (failure.within "failed to resolve input file paths"))
  | .ok paths => forPaths visit session paths

/-! ### Commands -/

/-- What `models` does with a file. -/
structure ModelsTask where
  /-- The settings of the models. -/
  settings : Settings
  /-- The form of the models. -/
  form : Form
  /-- The directory to write to. Without it the models are printed. -/
  out : Option Path
  /-- Whether nothing is to be written. -/
  dryRun : Bool

namespace ModelsTask

/-- The emitter of the models. -/
def emitter (task : ModelsTask) : Emitter :=
  task.form.emitter

/-- What is known when the models of a file have been made, or the failure to make them. -/
def generate (task : ModelsTask) (session : Session) (path : Path) :
    Session × Except Failure Generation :=
  match Document.load session.disk path with
  | .error fault => (session, .error (.ofLoadFault fault))
  | .ok document =>
    let session := session.log
      (Document.loadNotices path document ++ Generation.noticesOfDocument task.settings document)
    (session, (Generation.ofDocument task.settings document).mapError .ofCompileFault)

/-- The line that sums up what was written for a file. -/
def summary (task : ModelsTask) (path out : Path) (files : Nat) : String :=
  let verb := if task.dryRun then "would write" else "wrote"
  "✓ " ++ path.text ++ ": " ++ verb ++ " " ++ toString files ++ " files to " ++ out.text

/-- Writes the models of a file to a directory. -/
def write (task : ModelsTask) (session : Session) (path out : Path) (models : List Model) : Step :=
  let publication : Publication := ⟨out, task.settings, task.emitter, models⟩
  let (outcome, notices) :=
    if task.dryRun then
      let outcome := publication.dryRun session.disk
      (outcome, publication.dryNotices outcome)
    else
      let outcome := publication.run session.disk
      (outcome, Publication.notices outcome)
  let session := { session with disk := outcome.disk }.log notices
  match outcome.fault with
  | some fault => (session, some (.ofPublicationFault fault))
  | none => (session.tell (task.summary path out outcome.files.length), none)

/-- Prints models in order, up to the first that the emitter has no text for. -/
def print (task : ModelsTask) : Session → List Model → Step
  | session, [] => (session, none)
  | session, model :: models =>
    match task.emitter.emitModel task.settings model with
    | .error fault => (session, some (.ofEmissionFault fault))
    | .ok text => task.print (session.print text) models

/-- Compiles a file and writes or prints its models. -/
def visit (task : ModelsTask) (session : Session) (path : Path) : Step :=
  match task.generate session path with
  | (session, .error failure) =>
    (session, some (failure.within ("generation failed for " ++ path.text)))
  | (session, .ok generation) =>
    match task.out with
    | some out => task.write session path out generation.models.values
    | none => task.print session generation.models.values

end ModelsTask

/-- Prints the table of types of a file. -/
def visitTypes (session : Session) (path : Path) : Step :=
  match Document.load session.disk path with
  | .error fault => (session, some (.ofLoadFault fault))
  | .ok document =>
    let definitions := document.toDefinitions
    let session := session.log
      (Document.loadNotices path document ++ document.compositionNotices ++
        TypeMap.notices definitions)
    (session.print (TypeMap.ofDefinitions definitions).toJson.pretty, none)

/-- Carries out a command. -/
def Command.run (session : Session) : Command → Step
  | .models inputs settings form out dryRun =>
    forInputs (ModelsTask.visit ⟨settings, form, out, dryRun⟩) session inputs
  | .types inputs => forInputs visitTypes session inputs

/-! ### Whole runs -/

/-- How a run ends. -/
structure Report where
  /-- The exit code: zero for success, one for a failure, two for a misuse. -/
  code : Nat
  /-- The output. -/
  output : String
  /-- The messages. -/
  messages : String
  /-- The disk afterwards. -/
  disk : Disk

/-- Carries out a request. -/
def Request.report (disk : Disk) (filterText : Option String) : Request → Report
  | help => ⟨0, usageText, "", disk⟩
  | version => ⟨0, versionText, "", disk⟩
  | misuse fault => ⟨2, "", "error: " ++ fault.message ++ "\n\n" ++ usageText, disk⟩
  | .run verbosity command =>
    let session : Session := { disk, filter := .choose filterText verbosity }
    match command.run session with
    | (session, none) => ⟨0, session.output, session.messages, session.disk⟩
    | (session, some failure) =>
      ⟨1, session.output, session.messages ++ failure.report, session.disk⟩

/-- Runs the program with arguments, when `filterText` is what asks for a filter of the log. -/
def run (disk : Disk) (filterText : Option String) (arguments : List String) : Report :=
  (Request.ofArguments arguments).report disk filterText

end SchemaCompiler.CommandLine
