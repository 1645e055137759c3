import SchemaCompiler.Proofs.Publication
import SchemaCompiler.Proofs.Table

/-!
# When files collide

A publication claims the path of the base type first and then those of its models, in order, and each
model is turned into text before the next one claims its path. It is refused for the first model whose
path is claimed already or that the emitter has no text for, and after the models for the base type when
there is no text for that (`plan_eq_error_iff`). It is not refused exactly when all paths are different
by spelling and the emitter has a text for every output (`exists_plan_eq_ok_iff`).

So as long as the emitter has a text for every output, as those of the program always do, a collision is
two paths with the same components and nothing else. With another emitter a collision can stay unseen
behind a model without a text. A publication that is refused, and every dry run, leaves the disk alone; a
dry run foretells the files of a run that succeeds (`refused_iff_same_components`).
-/

namespace SchemaCompiler

namespace Path

/-- Paths are different by spelling when no two have the same components. -/
def Distinct (paths : List Path) : Prop :=
  (paths.map components).Nodup

instance (paths : List Path) : Decidable (Distinct paths) :=
  inferInstanceAs (Decidable (List.Nodup _))

/-- A path is one of some by spelling when one of them has its components. -/
def Among (path : Path) (paths : List Path) : Prop :=
  path.components ∈ paths.map components

instance (path : Path) (paths : List Path) : Decidable (path.Among paths) :=
  inferInstanceAs (Decidable (_ ∈ _))

theorem any_same_iff (path : Path) (paths : List Path) :
    paths.any path.same = true ↔ path.Among paths := by
  rw [Among, List.any_eq_true, List.mem_map]
  refine exists_congr fun other => and_congr_right fun _ => ?_
  rw [same, decide_eq_true_eq, eq_comm]

theorem distinct_cons_iff (path : Path) (paths : List Path) :
    Distinct (path :: paths) ↔ ¬ path.Among paths ∧ Distinct paths := by
  rw [Distinct, List.map_cons, List.nodup_cons, Among, Distinct]

/-- The order in which paths are claimed does not matter to whether they are different. -/
theorem distinct_append_cons_iff (path : Path) (taken later : List Path) :
    Distinct (taken ++ path :: later) ↔ Distinct (path :: (taken ++ later)) :=
  (List.perm_middle.map components).nodup_iff

theorem among_append_cons_iff (path other : Path) (taken later : List Path) :
    path.Among (taken ++ other :: later) ↔ path.Among (other :: (taken ++ later)) :=
  (List.perm_middle.map components).mem_iff

theorem Among.append {path : Path} {paths : List Path} (h : path.Among paths) (later : List Path) :
    path.Among (paths ++ later) := by
  rw [Among, List.map_append]
  exact List.mem_append_left _ h

theorem not_distinct_of_among {path : Path} {paths : List Path} (h : path.Among paths)
    (later : List Path) : ¬ Distinct (path :: (paths ++ later)) := by
  rw [distinct_cons_iff]
  exact fun distinct => distinct.1 (h.append later)

end Path

namespace Publication

open Traversal

variable {p : Publication}

/-! ### Plans -/

/-- A model is refused while some paths are claimed: its own is among them, or else it has no text. -/
inductive Refuses (p : Publication) (claimed : List Path) (model : Model) : PublicationFault → Prop where
  /-- Its path is claimed already. -/
  | collision (claims : (p.pathOf model.name).Among claimed) :
      Refuses p claimed model (.collision (p.pathOf model.name) model.name)
  /-- The emitter has no text for it. -/
  | unemitted {cause : EmissionFault} (free : ¬ (p.pathOf model.name).Among claimed)
      (silent : p.emitter.emitModel p.settings model = .error cause) :
      Refuses p claimed model (.unemitted cause)

theorem planModel_eq (p : Publication) (taken : List Path) (model : Model) : p.planModel taken model =
    if (p.pathOf model.name).Among taken then .error (.collision (p.pathOf model.name) model.name)
    else (p.outputOf model).mapError .unemitted := by
  simp only [planModel, Path.any_same_iff]

theorem planModel_eq_error_iff {taken : List Path} {model : Model} {fault : PublicationFault} :
    p.planModel taken model = .error fault ↔ p.Refuses taken model fault := by
  rw [planModel_eq]
  split_ifs with htaken
  · constructor
    · rintro ⟨⟩
      exact .collision htaken
    · rintro (⟨-⟩ | ⟨hfree, -⟩)
      · rfl
      · exact absurd htaken hfree
  · simp only [mapError_eq_error_iff, outputOf_eq_error_iff]
    constructor
    · rintro ⟨cause, hcause, rfl⟩
      exact .unemitted htaken hcause
    · rintro (⟨hclaims⟩ | ⟨-, hcause⟩)
      · exact absurd hclaims htaken
      · exact ⟨_, hcause, rfl⟩

theorem planModel_eq_ok_iff {taken : List Path} {model : Model} {file : Path × String} :
    p.planModel taken model = .ok file ↔
      ¬ (p.pathOf model.name).Among taken ∧ p.outputOf model = .ok file := by
  rw [planModel_eq]
  split_ifs with htaken
  · simp [htaken]
  · simp [htaken, mapError_eq_ok_iff]

/-- The order in which paths are claimed does not matter to who is refused. -/
theorem refuses_append_cons_iff (taken later : List Path) (path : Path) (model : Model)
    (fault : PublicationFault) : p.Refuses (taken ++ path :: later) model fault ↔
      p.Refuses (path :: (taken ++ later)) model fault := by
  have hclaims := Path.among_append_cons_iff (p.pathOf model.name) path taken later
  rw [← planModel_eq_error_iff, ← planModel_eq_error_iff, planModel_eq, planModel_eq]
  simp only [hclaims]

/-- Models are refused for the first of them, or it claims its path and the others are refused. -/
theorem planModels_cons_eq_error_iff {taken : List Path} {model : Model} {models : List Model}
    {fault : PublicationFault} : p.planModels taken (model :: models) = .error fault ↔
      p.Refuses taken model fault ∨ ¬ (p.pathOf model.name).Among taken ∧ p.HasText model ∧
        p.planModels (p.pathOf model.name :: taken) models = .error fault := by
  simp only [planModels, bind_eq_error_iff, planModel_eq_error_iff, planModel_eq_ok_iff,
    outputOf_eq_ok_iff, reduceCtorEq, and_false, exists_false, or_false]
  refine or_congr_right ?_
  constructor
  · rintro ⟨file, ⟨hfree, hpath, htext⟩, hlater⟩
    rw [hpath] at hlater
    exact ⟨hfree, ⟨_, htext⟩, hlater⟩
  · rintro ⟨hfree, ⟨text, htext⟩, hlater⟩
    exact ⟨(p.pathOf model.name, text), ⟨hfree, rfl, htext⟩, hlater⟩

theorem exists_planModels_cons_iff {taken : List Path} {model : Model} {models : List Model} :
    (∃ files, p.planModels taken (model :: models) = .ok files) ↔
      ¬ (p.pathOf model.name).Among taken ∧ p.HasText model ∧
        ∃ files, p.planModels (p.pathOf model.name :: taken) models = .ok files := by
  simp only [planModels, bind_eq_ok_iff, planModel_eq_ok_iff, outputOf_eq_ok_iff]
  constructor
  · rintro ⟨_, file, ⟨hfree, hpath, htext⟩, later, hlater, -⟩
    rw [hpath] at hlater
    exact ⟨hfree, ⟨_, htext⟩, later, hlater⟩
  · rintro ⟨hfree, ⟨text, htext⟩, later, hlater⟩
    exact ⟨_, (p.pathOf model.name, text), ⟨hfree, rfl, htext⟩, later, hlater, rfl⟩

/-- Models are refused for the first whose path is claimed already or that has no text. -/
theorem planModels_eq_error_iff {taken : List Path} {models : List Model} {fault : PublicationFault}
    (distinct : Path.Distinct taken) :
    p.planModels taken models = .error fault ↔
      ∃ earlier model later, models = earlier ++ model :: later ∧
        (Path.Distinct (taken ++ p.pathsOf earlier) ∧ (∀ other ∈ earlier, p.HasText other) ∧
          p.Refuses (taken ++ p.pathsOf earlier) model fault) := by
  -- on the models; each leaves one more path claimed to the next
  induction models generalizing taken with
  | nil => simp [planModels]
  | cons model models ih =>
    rw [planModels_cons_eq_error_iff, exists_split_cons_iff]
    simp only [pathsOf_cons, pathsOf_nil, List.append_nil, Path.distinct_append_cons_iff,
      refuses_append_cons_iff, List.forall_mem_cons]
    by_cases htaken : (p.pathOf model.name).Among taken
    · simp [htaken, Path.not_distinct_of_among htaken, distinct]
    · have hhead : Path.Distinct (p.pathOf model.name :: taken) :=
        (Path.distinct_cons_iff _ _).mpr ⟨htaken, distinct⟩
      have hlater := ih hhead
      simp only [List.cons_append] at hlater
      by_cases htext : p.HasText model <;> simp [hlater, htaken, htext, distinct]

/-- Models are planned exactly when their paths are different, none is claimed already, and each has a
text. -/
theorem exists_planModels_eq_ok_iff {taken : List Path} {models : List Model}
    (distinct : Path.Distinct taken) :
    (∃ files, p.planModels taken models = .ok files) ↔
      Path.Distinct (taken ++ p.pathsOf models) ∧ ∀ model ∈ models, p.HasText model := by
  induction models generalizing taken with
  | nil => simp [planModels, distinct]
  | cons model models ih =>
    rw [exists_planModels_cons_iff, pathsOf_cons, Path.distinct_append_cons_iff, List.forall_mem_cons]
    by_cases htaken : (p.pathOf model.name).Among taken
    · simp [htaken, Path.not_distinct_of_among htaken]
    · have hhead : Path.Distinct (p.pathOf model.name :: taken) :=
        (Path.distinct_cons_iff _ _).mpr ⟨htaken, distinct⟩
      rw [ih hhead, List.cons_append]
      simp only [htaken, not_false_eq_true, true_and]
      exact and_left_comm

/-- The paths that a publication claims: that of the base type, then those of its models. -/
def claims (p : Publication) : List Path :=
  p.basePath :: p.pathsOf p.models

theorem distinct_basePath (p : Publication) : Path.Distinct [p.basePath] := by
  simp [Path.Distinct]

/-- A publication is refused for the first model whose path is that of the base type or of an earlier model
or that has no text, or for want of a text of the base type. -/
theorem plan_eq_error_iff {fault : PublicationFault} :
    p.plan = .error fault ↔
      (∃ earlier model later, p.models = earlier ++ model :: later ∧
        (Path.Distinct (p.basePath :: p.pathsOf earlier) ∧ (∀ other ∈ earlier, p.HasText other) ∧
          p.Refuses (p.basePath :: p.pathsOf earlier) model fault)) ∨
      (Path.Distinct p.claims ∧ ∀ model ∈ p.models, p.HasText model) ∧
        ∃ cause, p.emitter.emitBase p.settings = .error cause ∧ .unemitted cause = fault := by
  have hplanned : (∃ files, p.planModels [p.basePath] p.models = .ok files) ↔
      Path.Distinct p.claims ∧ ∀ model ∈ p.models, p.HasText model :=
    exists_planModels_eq_ok_iff p.distinct_basePath
  rw [plan, bind_eq_error_iff, ← hplanned]
  refine or_congr (planModels_eq_error_iff p.distinct_basePath) ?_
  simp only [bind_eq_error_iff, mapError_eq_error_iff, baseOutput_eq_error_iff, reduceCtorEq, and_false,
    exists_false, or_false, exists_and_right]

/-- There is a plan exactly when the paths that are claimed are different and every output has a text. -/
theorem exists_plan_eq_ok_iff : (∃ files, p.plan = .ok files) ↔ Path.Distinct p.claims ∧ p.Renders := by
  have hplanned : (∃ files, p.planModels [p.basePath] p.models = .ok files) ↔
      Path.Distinct p.claims ∧ ∀ model ∈ p.models, p.HasText model :=
    exists_planModels_eq_ok_iff p.distinct_basePath
  have hbase := p.exists_baseOutput_iff
  simp only [plan, bind_eq_ok_iff, mapError_eq_ok_iff]
  constructor
  · rintro ⟨_, files, hfiles, base, hfile, -⟩
    obtain ⟨hdistinct, hmodels⟩ := hplanned.mp ⟨files, hfiles⟩
    exact ⟨hdistinct, hmodels, hbase.mp ⟨base, hfile⟩⟩
  · rintro ⟨hdistinct, hmodels, htext⟩
    obtain ⟨files, hfiles⟩ := hplanned.mpr ⟨hdistinct, hmodels⟩
    obtain ⟨base, hfile⟩ := hbase.mpr htext
    exact ⟨_, files, hfiles, base, hfile, rfl⟩

/-- A plan is refused before anything is written. -/
theorem ne_unwritable_of_plan {fault : PublicationFault} (h : p.plan = .error fault) (path : Path)
    (cause : FileFault) : fault ≠ .unwritable path cause := by
  rintro rfl
  obtain ⟨earlier, model, later, -, -, -, ⟨⟩⟩ | ⟨-, cause, -, ⟨⟩⟩ := plan_eq_error_iff.mp h

/-- Where every output has a text, a plan is refused for a collision or not at all. -/
theorem exists_collision_of_plan (h : p.Renders) {fault : PublicationFault} (hplan : p.plan = .error fault) :
    ∃ path name, fault = .collision path name := by
  obtain ⟨earlier, model, later, hsplit, -, -, hclaims | ⟨-, hsilent⟩⟩ | ⟨-, cause, hsilent, -⟩ :=
    plan_eq_error_iff.mp hplan
  · exact ⟨_, _, rfl⟩
  · obtain ⟨text, htext⟩ := h.model model (by rw [hsplit]; simp)
    rw [htext] at hsilent
    cases hsilent
  · obtain ⟨text, htext⟩ := h.base
    rw [htext] at hsilent
    cases hsilent

theorem exists_collision_iff (h : p.Renders) :
    (∃ path name, p.plan = .error (.collision path name)) ↔ ¬ Path.Distinct p.claims := by
  have hplan := p.exists_plan_eq_ok_iff
  rw [and_iff_left h] at hplan
  rw [← hplan]
  cases hfault : p.plan with
  | ok files => simp
  | error fault =>
    obtain ⟨path, name, rfl⟩ := exists_collision_of_plan h hfault
    simp

/-! ### Outcomes -/

variable {disk : Disk} {outcome : PublicationOutcome}

/-- Once the files are planned, nothing goes wrong but that something cannot be written. -/
theorem exists_unwritable_of_deliver {target : Path} {files : List (Path × String)}
    {fault : PublicationFault} (h : (deliver target files disk).fault = some fault) :
    ∃ path cause, fault = .unwritable path cause := by
  obtain ⟨made, cause, -, hdeliver⟩ | ⟨made, -, hdeliver⟩ := deliver_cases target files disk
  · rw [hdeliver, Option.some.injEq] at h
    exact ⟨target, cause, h.symm⟩
  · rw [hdeliver] at h
    obtain ⟨earlier, file, later, cause, -, -, -, hwrite⟩ := exists_split_of_writeAll h
    rw [hwrite, Option.some.injEq] at h
    exact ⟨file.1, cause, h.symm⟩

/-- What a run and a dry run have in common: their faults are those of the plan, but for what cannot be
written. -/
theorem fault_eq_some_iff (houtcome : outcome = p.run disk ∨ outcome = p.dryRun disk)
    {fault : PublicationFault} (hplanned : ∀ path cause, fault ≠ .unwritable path cause) :
    outcome.fault = some fault ↔ p.plan = .error fault := by
  rcases houtcome with rfl | rfl
  · obtain ⟨other, hplan, hrun⟩ | ⟨files, hplan, -, hrun⟩ := p.run_cases disk
    · simp [hrun, hplan]
    · rw [hrun, hplan]
      constructor
      · intro h
        obtain ⟨path, cause, hfault⟩ := exists_unwritable_of_deliver h
        exact absurd hfault (hplanned path cause)
      · intro h
        cases h
  · rw [dryRun]
    cases p.plan <;> simp

theorem fault_eq_collision_iff (houtcome : outcome = p.run disk ∨ outcome = p.dryRun disk)
    (path : Path) (name : String) :
    outcome.fault = some (.collision path name) ↔ p.plan = .error (.collision path name) :=
  fault_eq_some_iff houtcome (by simp)

/-- A plan that is refused leaves the disk alone. -/
theorem disk_of_plan_eq_error (houtcome : outcome = p.run disk ∨ outcome = p.dryRun disk)
    {fault : PublicationFault} (h : p.plan = .error fault) : outcome.disk = disk := by
  rcases houtcome with rfl | rfl
  · rw [run, h]
  · rw [dryRun, h]

theorem fault_dryRun_eq_none_iff : (p.dryRun disk).fault = none ↔ ∃ files, p.plan = .ok files := by
  rw [dryRun]
  cases p.plan <;> simp

theorem disk_dryRun : (p.dryRun disk).disk = disk := by
  rw [dryRun]
  cases p.plan <;> rfl

end Publication

/-- **Collisions.** When the emitter has a text for every output, a run or a dry run is refused exactly when
two of the paths that it claims, for the base type and for its models, have the same components. Whatever
the emitter, a collision names the first model whose path is that of the base type or of an earlier model,
and every model in front of that has a text; and unless something cannot be written, the disk is left as
it was. A dry run always leaves it so. A dry run succeeds exactly when every output has a text and no two
paths have the same components, whatever the disk. When a run succeeds so does the dry run, and both
report the files of the models in order and then that of the base type. Descriptors and outlines have a
text for every output. -/
theorem refused_iff_same_components (p : Publication) (disk : Disk) :
    (∀ outcome, (outcome = p.run disk ∨ outcome = p.dryRun disk) →
      (p.Renders → ((∃ path name, outcome.fault = some (.collision path name)) ↔
        ¬ ((p.basePath :: p.pathsOf p.models).map Path.components).Nodup)) ∧
      (∀ path name, outcome.fault = some (.collision path name) ↔
        ∃ earlier model later, p.models = earlier ++ model :: later ∧
          ((p.basePath :: p.pathsOf earlier).map Path.components).Nodup ∧
          (∀ other ∈ earlier, p.HasText other) ∧
          (p.pathOf model.name).components ∈
            (p.basePath :: p.pathsOf earlier).map Path.components ∧
          p.pathOf model.name = path ∧ model.name = name) ∧
      ∀ fault, outcome.fault = some fault → (∀ path cause, fault ≠ .unwritable path cause) →
        outcome.disk = disk) ∧
    (p.dryRun disk).disk = disk ∧
    ((p.dryRun disk).fault = none ↔
      p.Renders ∧ ((p.basePath :: p.pathsOf p.models).map Path.components).Nodup) ∧
    ((p.run disk).fault = none →
      (p.dryRun disk).fault = none ∧ (p.run disk).files = (p.dryRun disk).files ∧
      (p.run disk).files = p.pathsOf p.models ++ [p.basePath]) ∧
    (p.emitter = .json ∨ p.emitter = .outline → p.Renders) := by
  refine ⟨fun outcome houtcome => ⟨fun hrenders => ?_, fun path name => ?_, fun fault h hplanned => ?_⟩,
    Publication.disk_dryRun, ?_, fun h => ?_, ?_⟩
  · simp only [Publication.fault_eq_collision_iff houtcome]
    exact Publication.exists_collision_iff hrenders
  · rw [Publication.fault_eq_collision_iff houtcome, Publication.plan_eq_error_iff]
    constructor
    · rintro (⟨earlier, model, later, hsplit, hdistinct, htexts, ⟨hclaims⟩⟩ | ⟨-, cause, -, ⟨⟩⟩)
      exact ⟨earlier, model, later, hsplit, hdistinct, htexts, hclaims, rfl, rfl⟩
    · rintro ⟨earlier, model, later, hsplit, hdistinct, htexts, hclaims, rfl, rfl⟩
      exact .inl ⟨earlier, model, later, hsplit, hdistinct, htexts, .collision hclaims⟩
  · rw [Publication.fault_eq_some_iff houtcome hplanned] at h
    exact Publication.disk_of_plan_eq_error houtcome h
  · rw [Publication.fault_dryRun_eq_none_iff, Publication.exists_plan_eq_ok_iff, and_comm]
    rfl
  · obtain ⟨files, -, hplan, -⟩ := Publication.exists_writeAll_of_run h
    have hdry : (p.dryRun disk).fault = none := Publication.fault_dryRun_eq_none_iff.mpr ⟨files, hplan⟩
    have hfiles := Publication.files_of_run h
    exact ⟨hdry, hfiles.trans (Publication.files_of_dryRun hdry).symm, hfiles⟩
  · rintro (hemitter | hemitter)
    · exact Publication.renders_of_total (hemitter ▸ Emitter.total_json)
    · exact Publication.renders_of_total (hemitter ▸ Emitter.total_outline)

/-- Four models without properties. The third has the path of the first in another spelling, and the
fourth that of the base type. -/
def spellings : Publication where
  dir := ⟨"out"⟩
  settings := {}
  emitter := .json
  models := ["Cat", "cat", "./Cat", "BaseModel"].map fun name =>
    { name, scope := "Model", parent := none, description := none, properties := [] }

/-- They are refused for the third, and the disk stays empty. -/
theorem spellings_refused :
    (spellings.run {}).fault = some (.collision ⟨"out/Model/./Cat.json"⟩ "./Cat") ∧
      (spellings.run {}).disk = {} ∧ (spellings.dryRun {}).fault ≠ none := by
  obtain ⟨hrefused, -, hdry, -, hrenders⟩ := refused_iff_same_components spellings {}
  obtain ⟨-, hfirst, hdisk⟩ := hrefused _ (.inl rfl)
  have htexts := (hrenders (.inl rfl)).model
  have hfault := (hfirst ⟨"out/Model/./Cat.json"⟩ "./Cat").mpr
    ⟨spellings.models.take 2, spellings.models[2], spellings.models.drop 3, rfl, by decide,
      fun other hother => htexts other (List.mem_of_mem_take hother), by decide, by decide, rfl⟩
  exact ⟨hfault, hdisk _ hfault (by simp), fun h => absurd (hdry.mp h).2 (by decide)⟩

/-- Two models with one path, and between them one that the emitter has no text for. -/
def wordless : Publication where
  dir := ⟨"out"⟩
  settings := {}
  emitter :=
    { extension := "md"
      emitModel := fun _ model => if model.name = "Bat" then .error ⟨"no words"⟩ else .ok model.name
      emitBase := fun settings => .ok settings.baseType }
  models := ["Ant", "Bat", "Ant"].map fun name =>
    { name, scope := "Model", parent := none, description := none, properties := [] }

/-- The collision behind the model without a text stays unseen. -/
example : (wordless.run {}).fault = some (.unemitted ⟨"no words"⟩) := by decide +kernel

end SchemaCompiler
