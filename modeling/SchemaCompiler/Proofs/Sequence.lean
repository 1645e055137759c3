import SchemaCompiler.CommandLine.Run
import SchemaCompiler.Proofs.Collision

/-!
# Several files in one run

A call of `models` resolves its inputs first and touches nothing before all of them stand for some path.
Then it is one run after another: each file is loaded from the disk that the runs before it have left,
and it is settled as a whole or the call ends there. `Settles` and `Fails` say what becomes of one file
(`visit_settles_or_fails`), and `Settled` what becomes of several in order
(`exists_settled_forPaths`).

What a call tells in its messages has no part in this: logging and telling leave the disk and the output
alone.
-/

namespace SchemaCompiler.CommandLine

/-! ### What becomes of a file -/

/-- The emitters of the program never fail. -/
theorem Form.total_emitter (form : Form) : form.emitter.Total := by
  cases form with
  | json => exact Emitter.total_json
  | outline => exact Emitter.total_outline

namespace ModelsTask

variable (task : ModelsTask)

/-- The models of a file as it is on a disk; none when it cannot be loaded or compiled. -/
def models? (disk : Disk) (path : Path) : Option (List Model) :=
  match Document.load disk path with
  | .error _ => none
  | .ok document =>
    match Generation.ofDocument task.settings document with
    | .error _ => none
    | .ok generation => some generation.models.values

/-- What comes of writing models below a directory, or of a dry run of that. -/
def publish (disk : Disk) (dir : Path) (models : List Model) : PublicationOutcome :=
  let publication : Publication := ⟨dir, task.settings, task.emitter, models⟩
  if task.dryRun then publication.dryRun disk else publication.run disk

/-- What models come to when they are printed: their texts, each with a line break behind it. -/
def Prints (models : List Model) (output : String) : Prop :=
  ∃ texts, models.mapM (task.emitter.emitModel task.settings) = .ok texts ∧
    output = String.join (texts.map (· ++ "\n"))

/-- What the output of models is: they are printed unless there is a directory for them. -/
def Shows (models : List Model) (output : String) : Prop :=
  (task.out = none → task.Prints models output) ∧ (task.out ≠ none → output = "")

/-- A file on a disk is dealt with: it has these models, and this is the disk afterwards. -/
inductive Settles (disk : Disk) (path : Path) : List Model → Disk → Prop where
  /-- Without a directory its models are printed. -/
  | printed {models : List Model} (made : task.models? disk path = some models)
      (hout : task.out = none) : Settles disk path models disk
  /-- Otherwise they are written, or would be in a dry run. -/
  | written {models : List Model} {dir : Path} (made : task.models? disk path = some models)
      (hout : task.out = some dir) (success : (task.publish disk dir models).fault = none) :
      Settles disk path models (task.publish disk dir models).disk

/-- A file on a disk cannot be dealt with, and this is the disk afterwards. -/
inductive Fails (disk : Disk) (path : Path) : Disk → Prop where
  /-- It cannot be loaded or compiled. -/
  | unmade (made : task.models? disk path = none) : Fails disk path disk
  /-- Two of its outputs have the same path. -/
  | refused {models : List Model} {dir place : Path} {name : String}
      (made : task.models? disk path = some models) (hout : task.out = some dir)
      (failure : (task.publish disk dir models).fault = some (.collision place name)) :
      Fails disk path disk
  /-- Something cannot be written; what was written before it stays. -/
  | unwritable {models : List Model} {dir place : Path} {cause : FileFault}
      (made : task.models? disk path = some models) (hout : task.out = some dir)
      (failure : (task.publish disk dir models).fault = some (.unwritable place cause)) :
      Fails disk path (task.publish disk dir models).disk

/-- Files are dealt with one after the other, each on the disk that those before it have left. They have
these models together, and this is the disk afterwards. -/
inductive Settled : Disk → List Path → List Model → Disk → Prop where
  /-- There is no file. -/
  | nil (disk : Disk) : Settled disk [] [] disk
  /-- A first file, and those behind it. -/
  | cons {disk next last : Disk} {path : Path} {paths : List Path} {models later : List Model}
      (first : task.Settles disk path models next) (rest : Settled next paths later last) :
      Settled disk (path :: paths) (models ++ later) last

end ModelsTask

/-! ### Messages -/

namespace Session

/-- Logging changes nothing but the messages. -/
theorem log_eq (session : Session) (notices : List Notice) :
    ∃ messages, session.log notices = { session with messages } := by
  rw [log]
  generalize notices.filter session.filter.allows = shown
  induction shown generalizing session with
  | nil => exact ⟨session.messages, rfl⟩
  | cons notice shown ih =>
    obtain ⟨messages, h⟩ := ih (session.tell notice.line)
    exact ⟨messages, by rw [List.foldl_cons, h]; rfl⟩

@[simp] theorem disk_log (session : Session) (notices : List Notice) :
    (session.log notices).disk = session.disk := by
  obtain ⟨messages, h⟩ := session.log_eq notices
  rw [h]

@[simp] theorem output_log (session : Session) (notices : List Notice) :
    (session.log notices).output = session.output := by
  obtain ⟨messages, h⟩ := session.log_eq notices
  rw [h]

@[simp] theorem disk_tell (session : Session) (text : String) :
    (session.tell text).disk = session.disk := rfl

@[simp] theorem output_tell (session : Session) (text : String) :
    (session.tell text).output = session.output := rfl

end Session

namespace ModelsTask

variable (task : ModelsTask)

/-! ### Printing -/

theorem prints_nil : task.Prints [] "" :=
  ⟨[], rfl, rfl⟩

variable {task} in
theorem Prints.append {models later : List Model} {output output' : String}
    (h : task.Prints models output) (hlater : task.Prints later output') :
    task.Prints (models ++ later) (output ++ output') := by
  obtain ⟨texts, htexts, rfl⟩ := h
  obtain ⟨texts', htexts', rfl⟩ := hlater
  refine ⟨texts ++ texts', ?_, by rw [List.map_append, String.join_append]⟩
  rw [Traversal.mapM_eq_ok_iff] at htexts htexts' ⊢
  exact List.rel_append htexts htexts'

theorem shows_nil : task.Shows [] "" :=
  ⟨fun _ => task.prints_nil, fun _ => rfl⟩

variable {task} in
theorem Shows.append {models later : List Model} {output output' : String}
    (h : task.Shows models output) (hlater : task.Shows later output') :
    task.Shows (models ++ later) (output ++ output') := by
  refine ⟨fun hout => (h.1 hout).append (hlater.1 hout), fun hout => ?_⟩
  rw [h.2 hout, hlater.2 hout, String.empty_append]

/-- Models are all printed, since each has a text. -/
theorem exists_print_eq (session : Session) (models : List Model) : ∃ output,
    task.Prints models output ∧
      task.print session models = ({ session with output := session.output ++ output }, none) := by
  induction models generalizing session with
  | nil => exact ⟨"", task.prints_nil, by rw [print, String.append_empty]⟩
  | cons model models ih =>
    obtain ⟨text, htext⟩ := task.form.total_emitter.model task.settings model
    obtain ⟨output, hprints, hlater⟩ := ih (session.print text)
    have hfirst : task.Prints [model] (text ++ "\n") :=
      ⟨[text], (Traversal.mapM_eq_ok_iff _ _ _).mpr (.cons htext .nil), by simp [String.join_cons]⟩
    refine ⟨text ++ "\n" ++ output, hfirst.append hprints, ?_⟩
    rw [print, emitter, htext]
    change task.print (session.print text) models = _
    rw [hlater]
    simp [Session.print, String.append_assoc]

/-! ### One file -/

/-- Loading and compiling a file gives its models, or a failure when there are none; the disk and the
output stay as they are. -/
theorem exists_generate_eq (session : Session) (path : Path) :
    ∃ next : Session, next.disk = session.disk ∧ next.output = session.output ∧
      ((∃ generation, task.generate session path = (next, .ok generation) ∧
        task.models? session.disk path = some generation.models.values) ∨
      ∃ failure, task.generate session path = (next, .error failure) ∧
        task.models? session.disk path = none) := by
  rw [generate, models?]
  cases Document.load session.disk path with
  | error fault => exact ⟨session, rfl, rfl, .inr ⟨_, rfl, rfl⟩⟩
  | ok document =>
    refine ⟨session.log (Document.loadNotices path document ++
      Generation.noticesOfDocument task.settings document), by simp, by simp, ?_⟩
    simp only
    cases Generation.ofDocument task.settings document with
    | error fault => exact .inr ⟨_, rfl, rfl⟩
    | ok generation => exact .inl ⟨generation, rfl, rfl⟩

/-- Writing models, or a dry run of that, fails without writing anything when outputs collide; otherwise it
is because something cannot be written. -/
theorem publish_fault_cases {disk : Disk} {dir : Path} {models : List Model} {fault : PublicationFault}
    (h : (task.publish disk dir models).fault = some fault) :
    (∃ place name, fault = .collision place name) ∧ (task.publish disk dir models).disk = disk ∨
      ∃ place cause, fault = .unwritable place cause := by
  have hrenders : (⟨dir, task.settings, task.emitter, models⟩ : Publication).Renders :=
    Publication.renders_of_total task.form.total_emitter
  have houtcome : task.publish disk dir models =
        (⟨dir, task.settings, task.emitter, models⟩ : Publication).run disk ∨
      task.publish disk dir models =
        (⟨dir, task.settings, task.emitter, models⟩ : Publication).dryRun disk := by
    rw [publish]
    split_ifs
    · exact .inr rfl
    · exact .inl rfl
  by_cases hplanned : ∀ place cause, fault ≠ .unwritable place cause
  · have hplan := (Publication.fault_eq_some_iff houtcome hplanned).mp h
    exact .inl ⟨Publication.exists_collision_of_plan hrenders hplan,
      Publication.disk_of_plan_eq_error houtcome hplan⟩
  · simp only [ne_eq, not_forall, not_not] at hplanned
    exact .inr hplanned

/-- Writing models leaves the disk as it comes out, prints nothing, and ends the run when it fails. -/
theorem write_spec (session : Session) (path dir : Path) (models : List Model) :
    (task.write session path dir models).1.disk = (task.publish session.disk dir models).disk ∧
    (task.write session path dir models).1.output = session.output ∧
    (task.write session path dir models).2 =
      (task.publish session.disk dir models).fault.map .ofPublicationFault := by
  rw [write, publish]
  split_ifs with hdry
  · cases hfault : (Publication.dryRun ⟨dir, task.settings, task.emitter, models⟩ session.disk).fault <;>
      simp [hfault]
  · cases hfault : (Publication.run ⟨dir, task.settings, task.emitter, models⟩ session.disk).fault <;>
      simp [hfault]

/-- A file is dealt with or it is not. What its models are printed as is added to the output in the one
case, and nothing in the other. -/
theorem visit_settles_or_fails (session : Session) (path : Path) :
    (∃ models output, task.Settles session.disk path models (task.visit session path).1.disk ∧
      (task.visit session path).2 = none ∧ task.Shows models output ∧
      (task.visit session path).1.output = session.output ++ output) ∨
    ∃ failure, task.Fails session.disk path (task.visit session path).1.disk ∧
      (task.visit session path).2 = some failure ∧
      (task.visit session path).1.output = session.output := by
  obtain ⟨next, hdisk, houtput, ⟨generation, hgen, hmodels⟩ | ⟨failure, hgen, hmodels⟩⟩ :=
    task.exists_generate_eq session path
  · rw [visit, hgen]
    cases hout : task.out with
    | none =>
      obtain ⟨output, hprints, hprint⟩ := task.exists_print_eq next generation.models.values
      refine .inl ⟨generation.models.values, output, ?_, ?_, ?_, ?_⟩
      · simp only [hprint, hdisk]
        exact .printed hmodels hout
      · simp only [hprint]
      · exact ⟨fun _ => hprints, fun hsome => absurd hout hsome⟩
      · simp only [hprint, houtput]
    | some dir =>
      obtain ⟨hwritten, hsilent, hend⟩ := task.write_spec next path dir generation.models.values
      rw [hdisk] at hwritten hend
      rw [houtput] at hsilent
      simp only [hwritten, hsilent, hend]
      cases hfault : (task.publish session.disk dir generation.models.values).fault with
      | none =>
        refine .inl ⟨_, "", .written hmodels hout hfault, rfl, ?_, String.append_empty.symm⟩
        exact ⟨fun hnone => by simp [hout] at hnone, fun _ => rfl⟩
      | some fault =>
        refine .inr ⟨_, ?_, rfl, trivial⟩
        obtain ⟨⟨place, name, rfl⟩, hkept⟩ | ⟨place, cause, rfl⟩ := task.publish_fault_cases hfault
        · rw [hkept]
          exact .refused hmodels hout hfault
        · exact .unwritable hmodels hout hfault
  · rw [visit, hgen]
    refine .inr ⟨_, ?_, rfl, houtput⟩
    simp only [hdisk]
    exact .unmade hmodels

/-! ### Several files -/

/-- Going through files deals with those up to the first that fails, and prints what they come to. -/
theorem exists_settled_forPaths (session : Session) (paths : List Path) :
    ∃ before models last output, task.Settled session.disk before models last ∧
      task.Shows models output ∧
      (forPaths task.visit session paths).1.output = session.output ++ output ∧
      (before = paths ∧ (forPaths task.visit session paths).2 = none ∧
          (forPaths task.visit session paths).1.disk = last ∨
        ∃ path later failure, paths = before ++ path :: later ∧
          (forPaths task.visit session paths).2 = some failure ∧
          task.Fails last path (forPaths task.visit session paths).1.disk) := by
  -- over all sessions, since each file starts from what those before it have left
  induction paths generalizing session with
  | nil =>
    exact ⟨[], [], session.disk, "", .nil _, task.shows_nil, by simp [forPaths], .inl ⟨rfl, rfl, rfl⟩⟩
  | cons path paths ih =>
    have hvisit := task.visit_settles_or_fails session path
    rw [forPaths]
    generalize task.visit session path = step at hvisit ⊢
    obtain ⟨next, ending⟩ := step
    obtain ⟨models, output, hfirst, rfl, hshows, hprinted⟩ | ⟨failure, hfails, rfl, hprinted⟩ := hvisit
    · obtain ⟨before, later, last, output', hrest, hshows', houtput, hend⟩ := ih next
      refine ⟨path :: before, models ++ later, last, output ++ output', .cons hfirst hrest,
        hshows.append hshows', ?_, ?_⟩
      · rw [houtput, hprinted, String.append_assoc]
      · simpa using hend
    · exact ⟨[], [], session.disk, "", .nil _, task.shows_nil, by simpa using hprinted,
        .inr ⟨path, paths, failure, rfl, rfl, hfails⟩⟩

variable {task}

/-- Unless a directory is written to, and not for trial, a file leaves the disk alone. -/
theorem disk_publish {dir : Path} (hout : task.out = some dir)
    (hkeep : task.out = none ∨ task.dryRun = true) (disk : Disk) (models : List Model) :
    (task.publish disk dir models).disk = disk := by
  obtain hnone | hdry := hkeep
  · rw [hout] at hnone
    cases hnone
  · rw [publish, if_pos hdry]
    exact Publication.disk_dryRun

theorem Settles.disk_eq {disk next : Disk} {path : Path} {models : List Model}
    (h : task.Settles disk path models next) (hkeep : task.out = none ∨ task.dryRun = true) :
    next = disk := by
  cases h with
  | printed => rfl
  | written _ hout => exact disk_publish hout hkeep disk models

theorem Fails.disk_eq {disk next : Disk} {path : Path} (h : task.Fails disk path next)
    (hkeep : task.out = none ∨ task.dryRun = true) : next = disk := by
  cases h with
  | unmade | refused => rfl
  | unwritable _ hout => exact disk_publish hout hkeep disk _

theorem Settled.disk_eq {disk last : Disk} {paths : List Path} {models : List Model}
    (h : task.Settled disk paths models last) (hkeep : task.out = none ∨ task.dryRun = true) :
    last = disk := by
  induction h with
  | nil => rfl
  | cons first _ ih => rw [ih, first.disk_eq hkeep]

end ModelsTask

/-! ### Inputs -/

/-- The paths that an input stands for. A malformed pattern stands for none. -/
def expansion (disk : Disk) (input : String) : List Path :=
  if Glob.hasWildcard input then
    match Glob.expand disk input with
    | .error _ => []
    | .ok paths => paths
  else [⟨input⟩]

/-- A pattern that is malformed or matches nothing. -/
def Unresolvable (disk : Disk) (input : String) : Prop :=
  Glob.hasWildcard input = true ∧
    ((∃ fault, Glob.expand disk input = .error fault) ∨ Glob.expand disk input = .ok [])

theorem resolveInput_of_unresolvable {disk : Disk} {input : String} (h : Unresolvable disk input) :
    ∃ failure, resolveInput disk input = .error failure := by
  obtain ⟨hwild, ⟨fault, hexpand⟩ | hexpand⟩ := h
  · exact ⟨_, by rw [resolveInput, if_pos hwild, hexpand]⟩
  · exact ⟨_, by rw [resolveInput, if_pos hwild, hexpand]⟩

theorem resolveInput_of_not_unresolvable {disk : Disk} {input : String}
    (h : ¬ Unresolvable disk input) : resolveInput disk input = .ok (expansion disk input) := by
  rw [resolveInput, expansion]
  split_ifs with hwild
  · cases hexpand : Glob.expand disk input with
    | error fault => exact absurd ⟨hwild, .inl ⟨fault, hexpand⟩⟩ h
    | ok paths =>
      cases paths with
      | nil => exact absurd ⟨hwild, .inr hexpand⟩ h
      | cons path paths => rfl
  · rfl

theorem resolveInputs_of_unresolvable {disk : Disk} {inputs : List String}
    (h : ∃ input ∈ inputs, Unresolvable disk input) :
    ∃ failure, resolveInputs disk inputs = .error failure := by
  induction inputs with
  | nil => simp at h
  | cons input inputs ih =>
    rw [resolveInputs]
    by_cases hfirst : Unresolvable disk input
    · obtain ⟨failure, hfailure⟩ := resolveInput_of_unresolvable hfirst
      exact ⟨failure, by rw [hfailure]; rfl⟩
    · obtain ⟨failure, hfailure⟩ := ih (by simpa [hfirst] using h)
      exact ⟨failure, by rw [resolveInput_of_not_unresolvable hfirst, hfailure]; rfl⟩

theorem resolveInputs_of_forall_not {disk : Disk} {inputs : List String}
    (h : ∀ input ∈ inputs, ¬ Unresolvable disk input) :
    resolveInputs disk inputs = .ok (inputs.flatMap (expansion disk)) := by
  induction inputs with
  | nil => rfl
  | cons input inputs ih =>
    rw [resolveInputs, resolveInput_of_not_unresolvable (h input List.mem_cons_self),
      ih fun other hother => h other (List.mem_cons_of_mem _ hother)]
    rfl

/-! ### Whole calls -/

/-- A run that carries out a command reports what the command has done, and code one for a failure. -/
theorem exists_run_eq (disk : Disk) (filterText : Option String) {arguments : List String}
    {verbosity : Nat} {command : Command}
    (h : Request.ofArguments arguments = .run verbosity command) :
    ∃ session : Session, session.disk = disk ∧ session.output = "" ∧
      (run disk filterText arguments).code = (if (command.run session).2.isSome then 1 else 0) ∧
      (run disk filterText arguments).output = (command.run session).1.output ∧
      (run disk filterText arguments).disk = (command.run session).1.disk := by
  refine ⟨{ disk, filter := .choose filterText verbosity }, rfl, rfl, ?_⟩
  rw [run, h, Request.report]
  generalize command.run { disk, filter := .choose filterText verbosity } = step
  obtain ⟨session, _ | failure⟩ := step <;> exact ⟨rfl, rfl, rfl⟩

/-- Inputs of which one stands for nothing end a command before the first file. -/
theorem forInputs_of_unresolvable (visit : Session → Path → Step) {session : Session}
    {inputs : List String} (h : ∃ input ∈ inputs, Unresolvable session.disk input) :
    ∃ failure, forInputs visit session inputs = (session, some failure) := by
  obtain ⟨failure, hfailure⟩ := resolveInputs_of_unresolvable h
  exact ⟨_, by rw [forInputs, hfailure]⟩

theorem forInputs_of_forall_not (visit : Session → Path → Step) {session : Session}
    {inputs : List String} (h : ∀ input ∈ inputs, ¬ Unresolvable session.disk input) :
    forInputs visit session inputs =
      forPaths visit session (inputs.flatMap (expansion session.disk)) := by
  rw [forInputs, resolveInputs_of_forall_not h]

/-- **Calls of `models`.** When an input is a pattern that is malformed or matches nothing, the call fails
without output and leaves the disk alone. Otherwise the files that the inputs stand for are dealt with in
order, each on the disk that those before it have left, up to the first that fails. The output is that of
the models of the files dealt with when they are printed, and nothing when they are written. The code
says whether all files were dealt with, and the disk is the one they have left or, if one fails, what has
become of that. It stays as it is when models are printed and in a dry run. -/
theorem models_in_sequence (disk : Disk) (filterText : Option String) {arguments : List String}
    {verbosity : Nat} {inputs : List String} {settings : Settings} {form : Form}
    {out : Option Path} {dryRun : Bool}
    (h : Request.ofArguments arguments = .run verbosity (.models inputs settings form out dryRun)) :
    let task : ModelsTask := ⟨settings, form, out, dryRun⟩
    let report := run disk filterText arguments
    ((∃ input ∈ inputs, Unresolvable disk input) →
      report.code = 1 ∧ report.output = "" ∧ report.disk = disk) ∧
    ((∀ input ∈ inputs, ¬ Unresolvable disk input) →
      ∃ before models last, task.Settled disk before models last ∧
        (out = none → ∃ texts, models.mapM (form.emitter.emitModel settings) = .ok texts ∧
          report.output = String.join (texts.map (· ++ "\n"))) ∧
        (out ≠ none → report.output = "") ∧
        (before = inputs.flatMap (expansion disk) ∧ report.code = 0 ∧ report.disk = last ∨
          ∃ path later, inputs.flatMap (expansion disk) = before ++ path :: later ∧
            report.code = 1 ∧ task.Fails last path report.disk)) ∧
    (out = none ∨ dryRun = true → report.disk = disk) := by
  intro task report
  obtain ⟨session, hdisk, hempty, hcode, houtput, hafter⟩ := exists_run_eq disk filterText h
  obtain rfl := hdisk
  rw [Command.run] at hcode houtput hafter
  have hbad (hsome : ∃ input ∈ inputs, Unresolvable session.disk input) :
      report.code = 1 ∧ report.output = "" ∧ report.disk = session.disk := by
    obtain ⟨failure, hend⟩ := forInputs_of_unresolvable task.visit hsome
    rw [hend] at hcode houtput hafter
    exact ⟨hcode, houtput.trans hempty, hafter⟩
  have hgood (hall : ∀ input ∈ inputs, ¬ Unresolvable session.disk input) :
      ∃ before models last, task.Settled session.disk before models last ∧
        (out = none → task.Prints models report.output) ∧ (out ≠ none → report.output = "") ∧
        (before = inputs.flatMap (expansion session.disk) ∧ report.code = 0 ∧ report.disk = last ∨
          ∃ path later, inputs.flatMap (expansion session.disk) = before ++ path :: later ∧
            report.code = 1 ∧ task.Fails last path report.disk) := by
    obtain ⟨before, models, last, output, hsettled, ⟨hprints, hsilent⟩, hprinted, hend⟩ :=
      task.exists_settled_forPaths session (inputs.flatMap (expansion session.disk))
    rw [forInputs_of_forall_not _ hall] at hcode houtput hafter
    rw [hempty, String.empty_append, ← houtput] at hprinted
    rw [← hafter] at hend
    rw [← hprinted] at hprints hsilent
    refine ⟨before, models, last, hsettled, hprints, hsilent, ?_⟩
    obtain ⟨hwhole, hnone, hlast⟩ | ⟨path, later, failure, hsplit, hsome, hfails⟩ := hend
    · rw [hnone] at hcode
      exact .inl ⟨hwhole, hcode, hlast⟩
    · rw [hsome] at hcode
      exact .inr ⟨path, later, hsplit, hcode, hfails⟩
  refine ⟨hbad, hgood, fun hkeep => ?_⟩
  by_cases hsome : ∃ input ∈ inputs, Unresolvable session.disk input
  · exact (hbad hsome).2.2
  · obtain ⟨before, models, last, hsettled, -, -, ⟨-, -, hlast⟩ | ⟨path, later, -, -, hfails⟩⟩ :=
      hgood (by simpa using hsome)
    · rw [hlast, hsettled.disk_eq hkeep]
    · rw [hfails.disk_eq hkeep, hsettled.disk_eq hkeep]

/-- A disk with one file. -/
def shelf : Disk where
  entries :=
    [(["books.json"],
      .file "\x7b\"definitions\": \x7b\"book\": \x7b\"type\": \"object\"\x7d\x7d\x7d".toUTF8)]

/-- A pattern that matches nothing stops a call before the file in front of it; a missing file stops it
behind the file in front of it. -/
theorem shelf_in_sequence :
    (let report := run shelf none ["models", "-i", "books.json", "*.yml"]
     report.code = 1 ∧ report.output = "" ∧ report.disk = shelf) ∧
    let report := run shelf none ["models", "-i", "books.json", "games.json", "books.json"]
    let task : ModelsTask := ⟨{}, .json, none, false⟩
    report.code = 1 ∧ report.output ≠ "" ∧ report.disk = shelf ∧
    ∃ before models last path later, task.Settled shelf before models last ∧
      [⟨"books.json"⟩, ⟨"games.json"⟩, ⟨"books.json"⟩] = before ++ path :: later ∧
      task.Fails last path report.disk ∧
      ∃ texts, models.mapM (Emitter.json.emitModel {}) = .ok texts ∧
        report.output = String.join (texts.map (· ++ "\n")) := by
  have hpattern : Request.ofArguments ["models", "-i", "books.json", "*.yml"] =
      .run 0 (.models ["books.json", "*.yml"] {} .json none false) := rfl
  have hfiles : Request.ofArguments ["models", "-i", "books.json", "games.json", "books.json"] =
      .run 0 (.models ["books.json", "games.json", "books.json"] {} .json none false) := rfl
  constructor
  · have hnothing : Glob.expand shelf "*.yml" = .ok [] := by decide +kernel
    exact (models_in_sequence shelf none hpattern).1 ⟨"*.yml", by simp, rfl, .inr hnothing⟩
  · have hcode : (run shelf none ["models", "-i", "books.json", "games.json", "books.json"]).code = 1 := by
      decide +kernel
    have houtput : (run shelf none ["models", "-i", "books.json", "games.json", "books.json"]).output ≠
        "" := by
      decide +kernel
    have hplain : ∀ input ∈ ["books.json", "games.json", "books.json"],
        Glob.hasWildcard input ≠ true := by
      decide +kernel
    obtain ⟨-, hgood, hkeep⟩ := models_in_sequence shelf none hfiles
    obtain ⟨before, models, last, hsettled, hprinted, -, ⟨-, hzero, -⟩ |
      ⟨path, later, hsplit, -, hfails⟩⟩ := hgood fun input hinput h => hplain input hinput h.1
    · rw [hcode] at hzero
      cases hzero
    · exact ⟨hcode, houtput, hkeep (.inl rfl), before, models, last, path, later, hsettled, hsplit,
        hfails, hprinted rfl⟩

end SchemaCompiler.CommandLine
