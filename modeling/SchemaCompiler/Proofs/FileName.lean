import SchemaCompiler.Proofs.Closure
import SchemaCompiler.Proofs.Overwriting

/-!
# Where the files of generated models are

Identifiers and titles are free text, but the names of generated models are not: they consist of
ASCII letters and digits (`Name.isPlain_typeName`). So models with different names have different files
(`eq_of_components_pathOf`), and the file of a model is directly below the directory of its namespace,
unless the extension leads away from there (`components_pathOf`). The name of the base type is free text.
It is the only thing that can make the models of a run collide, when its file is that of a model by
spelling (`generated_files_collide_iff`).
-/

namespace SchemaCompiler

/-! ### Names of models -/

/-- Whether a text consists of ASCII letters and digits. It may be empty. -/
def Name.IsPlain (name : String) : Prop :=
  ∀ c ∈ name.toList, 'A' ≤ c ∧ c ≤ 'Z' ∨ 'a' ≤ c ∧ c ≤ 'z' ∨ '0' ≤ c ∧ c ≤ '9'

instance (name : String) : Decidable (Name.IsPlain name) :=
  inferInstanceAs (Decidable (∀ c ∈ name.toList, _))

theorem Name.isPlain_typeName (title : String) : Name.IsPlain (Name.typeName title) := by
  intro c hc
  rw [typeName, String.toList_ofList, typeNameOf, List.mem_filter] at hc
  have hchar : c.isAlphanum = true := hc.2
  obtain halpha | hdigit : c.isAlpha = true ∨ c.isDigit = true := Bool.or_eq_true_iff.mp hchar
  · obtain hupper | hlower : c.isUpper = true ∨ c.isLower = true := Bool.or_eq_true_iff.mp halpha
    · exact .inl (of_decide_eq_true hupper)
    · obtain ⟨hfirst, hlast⟩ := Bool.and_eq_true_iff.mp hlower
      exact .inr (.inl ⟨of_decide_eq_true hfirst, of_decide_eq_true hlast⟩)
  · obtain ⟨hfirst, hlast⟩ := Bool.and_eq_true_iff.mp hdigit
    exact .inr (.inr ⟨of_decide_eq_true hfirst, of_decide_eq_true hlast⟩)

/-- A slash cannot be in such a name. -/
theorem Name.IsPlain.slash_notMem {name : String} (h : Name.IsPlain name) : '/' ∉ name.toList := by
  intro hslash
  have hrange := h '/' hslash
  revert hrange
  decide

/-- The type name of a definition is derived from its title or from its identifier. -/
theorem Definition.exists_typeName_eq (definition : Definition) :
    ∃ text, definition.typeName = Name.typeName text := by
  rw [typeName, titleName?]
  cases definition.title with
  | none => exact ⟨definition.id, rfl⟩
  | some title =>
    rw [Option.map_some, Option.filter_some]
    split_ifs
    · exact ⟨title, rfl⟩
    · exact ⟨definition.id, rfl⟩

theorem Definition.isPlain_typeName (definition : Definition) : Name.IsPlain definition.typeName := by
  obtain ⟨text, htext⟩ := definition.exists_typeName_eq
  rw [htext]
  exact Name.isPlain_typeName text

namespace Generation

variable {settings : Settings} {definitions : List Definition} {generation : Generation}

/-- A definition is compiled under a plain name, also when the table has that of another one. -/
theorem isPlain_nameOf (definitions : List Definition) (definition : Definition) :
    Name.IsPlain (Model.nameOf (.ofDefinitions definitions) definition) := by
  rw [Model.nameOf]
  split
  · next name hget =>
    obtain ⟨other, -, -, rfl⟩ := (TypeMap.get?_eq_model_iff definitions definition.id name).mp hget
    exact other.isPlain_typeName
  · exact definition.isPlain_typeName

theorem isPlain_of_mem_values (h : ofDefinitions settings definitions = .ok generation) {model : Model}
    (hmodel : model ∈ generation.models.values) : Name.IsPlain model.name := by
  obtain ⟨definition, -, -, hm⟩ := exists_compile_of_mem_values h hmodel
  rw [Model.name_of_compile hm, types_of_ok h]
  exact isPlain_nameOf definitions definition

/-- The models of a run have the names under which they are stored. -/
theorem names_of_values (h : ofDefinitions settings definitions = .ok generation) :
    generation.models.values.map Model.name = generation.models.keys := by
  rw [Table.values, Table.keys, Entries.keys, List.map_map]
  refine List.map_congr_left fun entry hentry => ?_
  have hget := (Table.get?_eq_some_iff generation.models entry.1 entry.2).mpr hentry
  exact (own_name_of_get? h hget).1

/-- No two models of a run have the same name. -/
theorem nodup_names (h : ofDefinitions settings definitions = .ok generation) :
    (generation.models.values.map Model.name).Nodup := by
  rw [names_of_values h]
  exact generation.models.nodup_keys

end Generation

/-! ### Files of models -/

namespace Publication

/-- The file of a type with a plain name is directly below the directory. -/
theorem components_pathOf (p : Publication) (hextension : Path.IsExtension p.emitter.extension)
    {name : String} (h : Name.IsPlain name) : (p.pathOf name).components =
      p.target.components ++ [.name (name ++ "." ++ p.emitter.extension)] :=
  (p.target.components_join_eq_iff _).mpr (p.isName_fileName hextension h.slash_notMem)

/-- Types with different plain names have different files. -/
theorem eq_of_components_pathOf {p : Publication} {name other : String} (h : Name.IsPlain name)
    (hother : Name.IsPlain other) (heq : (p.pathOf name).components = (p.pathOf other).components) :
    name = other :=
  Path.eq_of_components_join h.slash_notMem hother.slash_notMem heq

/-- A publication whose models are apart is refused for a collision exactly when the file of the base type is
that of a model, and there is a text for every model in front of that. -/
theorem exists_collision_iff_of_distinct {p : Publication} (h : Path.Distinct (p.pathsOf p.models)) :
    (∃ path name, p.plan = .error (.collision path name)) ↔
      ∃ earlier model later, p.models = earlier ++ model :: later ∧
        (∀ other ∈ earlier, p.HasText other) ∧
        p.basePath.components = (p.pathOf model.name).components := by
  have hapart {earlier later : List Model} {model : Model}
      (hsplit : p.models = earlier ++ model :: later) :
      ¬ (p.pathOf model.name).Among (p.pathsOf earlier) ∧ Path.Distinct (p.pathsOf earlier) := by
    rw [hsplit, pathsOf, List.map_append, List.map_cons, Path.distinct_append_cons_iff] at h
    refine ⟨fun hamong => Path.not_distinct_of_among hamong _ h, ?_⟩
    rw [Path.distinct_cons_iff, Path.Distinct, List.map_append] at h
    exact h.2.of_append_left
  constructor
  · rintro ⟨path, name, hplan⟩
    obtain ⟨earlier, model, later, hsplit, -, htexts, ⟨hclaims⟩⟩ | ⟨-, cause, -, ⟨⟩⟩ :=
      plan_eq_error_iff.mp hplan
    refine ⟨earlier, model, later, hsplit, htexts, ?_⟩
    obtain hbase | hearlier := List.mem_cons.mp hclaims
    · exact hbase.symm
    · exact absurd hearlier (hapart hsplit).1
  · rintro ⟨earlier, model, later, hsplit, htexts, hbase⟩
    obtain ⟨hfree, hdistinct⟩ := hapart hsplit
    have hclaims : (p.pathOf model.name).Among (p.basePath :: p.pathsOf earlier) :=
      List.mem_cons.mpr (.inl hbase.symm)
    have hother : ¬ p.basePath.Among (p.pathsOf earlier) := by
      rw [Path.Among, hbase]
      exact hfree
    exact ⟨_, _, plan_eq_error_iff.mpr (.inl ⟨earlier, model, later, hsplit,
      (Path.distinct_cons_iff _ _).mpr ⟨hother, hdistinct⟩, htexts, .collision hclaims⟩)⟩

/-- Where every output has a text, so has every model in front of another. -/
theorem exists_split_iff {p : Publication} (h : p.Renders) {P : Model → Prop} :
    (∃ earlier model later, p.models = earlier ++ model :: later ∧
      (∀ other ∈ earlier, p.HasText other) ∧ P model) ↔ ∃ model ∈ p.models, P model := by
  constructor
  · rintro ⟨earlier, model, later, hsplit, -, hmodel⟩
    refine ⟨model, ?_, hmodel⟩
    rw [hsplit]
    exact List.mem_append_right _ List.mem_cons_self
  · rintro ⟨model, hmem, hmodel⟩
    obtain ⟨earlier, later, hsplit⟩ := List.append_of_mem hmem
    refine ⟨earlier, model, later, hsplit, fun other hother => h.model other ?_, hmodel⟩
    rw [hsplit]
    exact List.mem_append_left _ hother

end Publication

/-- **Files of generated models.** Whatever the identifiers and titles of a run, the names of its models
consist of ASCII letters and digits. With an extension that keeps within a name, the file of every model is
a single component below the directory of the namespace: the name with the extension. With any extension,
no two models have the same file. So when the models of the run are written, or a dry run is made, there is
a collision exactly when the file of the base type has the components of that of some model, and there is a
text for every model in front of that. Descriptors and outlines have such an extension and a text for every
output. -/
theorem generated_files_collide_iff {settings : Settings} {definitions : List Definition}
    {generation : Generation} (h : Generation.ofDefinitions settings definitions = .ok generation)
    (dir : Path) (emitter : Emitter) :
    let p : Publication := ⟨dir, settings, emitter, generation.models.values⟩
    (∀ model ∈ generation.models.values, Name.IsPlain model.name ∧
      (Path.IsExtension emitter.extension → (p.pathOf model.name).components =
        (settings.directory dir).components ++ [.name (model.name ++ "." ++ emitter.extension)])) ∧
    (generation.models.values.map fun model => (p.pathOf model.name).components).Nodup ∧
    (∀ disk outcome, (outcome = p.run disk ∨ outcome = p.dryRun disk) →
      ((∃ path name, outcome.fault = some (.collision path name)) ↔
        ∃ earlier model later, generation.models.values = earlier ++ model :: later ∧
          (∀ other ∈ earlier, p.HasText other) ∧
          p.basePath.components = (p.pathOf model.name).components) ∧
      (p.Renders → ((∃ path name, outcome.fault = some (.collision path name)) ↔
        ∃ model ∈ generation.models.values,
          p.basePath.components = (p.pathOf model.name).components))) ∧
    (emitter = .json ∨ emitter = .outline → Path.IsExtension emitter.extension ∧ p.Renders) := by
  intro p
  have hplain : ∀ model ∈ generation.models.values, Name.IsPlain model.name :=
    fun model => Generation.isPlain_of_mem_values h
  have hdistinct : Path.Distinct (p.pathsOf p.models) := by
    have hnames := Generation.nodup_names h
    rw [Path.Distinct, Publication.pathsOf, List.map_map]
    refine List.Nodup.map_on (fun a ha b hb heq => ?_) (List.Nodup.of_map _ hnames)
    have hsame := Publication.eq_of_components_pathOf (hplain a ha) (hplain b hb) heq
    exact List.inj_on_of_nodup_map hnames ha hb hsame
  refine ⟨fun model hmodel => ⟨hplain model hmodel, fun hextension => ?_⟩, ?_,
    fun disk outcome houtcome => ?_, ?_⟩
  · exact p.components_pathOf hextension (hplain model hmodel)
  · simpa [Path.Distinct, Publication.pathsOf, Function.comp_def] using hdistinct
  · simp only [Publication.fault_eq_collision_iff houtcome]
    have hcollides := Publication.exists_collision_iff_of_distinct hdistinct
    exact ⟨hcollides, fun hrenders => hcollides.trans (Publication.exists_split_iff hrenders)⟩
  · rintro (rfl | rfl)
    · exact ⟨by decide, Publication.renders_of_total Emitter.total_json⟩
    · exact ⟨by decide, Publication.renders_of_total Emitter.total_outline⟩

/-- Definitions whose identifiers would lead elsewhere as paths, or have nothing to keep. -/
def wayward : List Definition :=
  [{ id := "../../etc", kind := .object }, { id := "ﬁsh/tank", kind := .object, title := some "§" },
    { id := "§", kind := .object }]

/-- Models are written with a base type that has the name of the second in another spelling. -/
def waywardFiles (models : List Model) : Publication where
  dir := ⟨"/out/"⟩
  settings := { baseType := "./FIshtank" }
  emitter := .outline
  models

/-- The names of their models are plain, and the run is refused. -/
theorem wayward_collide : ∃ generation,
    Generation.ofDefinitions { baseType := "./FIshtank" } wayward = .ok generation ∧
    generation.models.values.map Model.name = ["etc", "FIshtank", ""] ∧
    ∃ path name, ((waywardFiles generation.models.values).run {}).fault =
      some (.collision path name) := by
  obtain ⟨generation, h, hnames, hbase⟩ : ∃ generation,
      Generation.ofDefinitions { baseType := "./FIshtank" } wayward = .ok generation ∧
      generation.models.values.map Model.name = ["etc", "FIshtank", ""] ∧
      ∃ model ∈ generation.models.values,
        (waywardFiles generation.models.values).basePath.components =
          ((waywardFiles generation.models.values).pathOf model.name).components :=
    ⟨_, rfl, by decide +kernel, by decide +kernel⟩
  obtain ⟨-, -, hcollide, hstock⟩ := generated_files_collide_iff h ⟨"/out/"⟩ .outline
  obtain ⟨-, hrenders⟩ := hstock (.inr rfl)
  exact ⟨generation, h, hnames, ((hcollide {} _ (.inl rfl)).2 hrenders).mpr hbase⟩

end SchemaCompiler
