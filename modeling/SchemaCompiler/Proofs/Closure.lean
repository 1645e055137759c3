import SchemaCompiler.Proofs.Compilation
import SchemaCompiler.Proofs.Publication

/-!
# No reference of a run leads nowhere

Every type that a generated model names, as its parent, in a hint or at any depth of the type of a
property, is a model of the same run, and is in the namespace of the settings. This holds for all
lists of definitions: identifiers may repeat, names may collide, and references may point anywhere
(`references_closed`).

What carries the proof is that a name which the table of types gives to any identifier is one under
which an object is compiled: the last definition with the identifier is compiled under just that name
(`mem_keys_of_get?`), and a model that is replaced leaves its name in the table.
-/

namespace SchemaCompiler

/-! ### The types that a model names -/

/-- The models at all depths of a field type. -/
def FieldType.refs : FieldType → List TypeRef
  | model ref => [ref]
  | collection element => element.refs
  | _ => []

/-- The types that a property names: those in its type and those that its methods ask for. -/
def PropertyDescriptor.refs (property : PropertyDescriptor) : List TypeRef :=
  property.type.refs ++ property.setter.hint.toList ++ (property.adder.bind (·.hint)).toList

/-- The types that a model names: its parent and those that its properties name. -/
def Model.refs (model : Model) : List TypeRef :=
  model.parent.toList ++ model.properties.flatMap PropertyDescriptor.refs

/-- The file of a type in a directory: below the directory of its namespace, under its name. -/
def TypeRef.file (ref : TypeRef) (dir : Path) (emitter : Emitter) : Path :=
  ((⟨ref.scope, ""⟩ : Settings).directory dir).join (ref.name ++ "." ++ emitter.extension)

theorem FieldType.mem_refs_of_hint {type : FieldType} {ref : TypeRef} (h : type.hint = some ref) :
    ref ∈ type.refs := by
  cases type <;> simp_all [hint, refs]

theorem FieldType.refs_of_element {type element : FieldType} (h : type.element = some element) :
    type.refs = element.refs := by
  cases type <;> simp_all [FieldType.element, refs]

/-- The methods of a property ask for no type that is not in its own. -/
theorem PropertyDescriptor.mem_refs_ofType {spec : PropertySpec} {required : Bool} {type : FieldType}
    {default : Option Default} {ref : TypeRef} (h : ref ∈ (ofType spec required type default).refs) :
    ref ∈ type.refs := by
  simp only [refs, ofType, setterOf, adderOf, List.mem_append, Option.mem_toList] at h
  rcases h with (h | h) | h
  · exact h
  · exact FieldType.mem_refs_of_hint h
  · cases helement : type.element with
    | none => simp [helement] at h
    | some element =>
      rw [FieldType.refs_of_element helement]
      refine FieldType.mem_refs_of_hint ?_
      simpa [helement] using h

/-! ### What the table of types knows -/

/-- A type is known when it is in the namespace of the settings and the table gives its name to some
identifier. -/
def Known (types : TypeMap) (settings : Settings) (ref : TypeRef) : Prop :=
  ref.scope = settings.scope ∧ ∃ id, types.get? id = some (.model ref.name)

section Known

variable {types : TypeMap} {settings : Settings}

theorem known_typeRef {id name : String} (h : types.get? id = some (.model name)) :
    Known types settings (settings.typeRef name) :=
  ⟨rfl, id, h⟩

theorem FieldType.refs_ofKeyword (keyword : String) : (ofKeyword keyword).refs = [] := by
  rw [ofKeyword]
  split_ifs <;> rfl

theorem FieldType.known_of_ofDeclared {declared : DeclaredType} {type : FieldType}
    (h : ofDeclared types settings declared = .ok type) : ∀ ref ∈ type.refs, Known types settings ref := by
  -- on the arrays around the type; only a reference can bring in a model
  induction declared generalizing type with
  | primitive keyword =>
    cases h
    simp [refs_ofKeyword]
  | mixed =>
    cases h
    simp [refs]
  | unknown =>
    cases h
    simp [refs]
  | reference text =>
    obtain ⟨resolved, hget, rfl⟩ := ofDeclared_reference_eq_ok_iff.mp h
    cases resolved with
    | primitive keyword => simp [ofResolved, refs_ofKeyword]
    | model name =>
      intro ref hmem
      rw [ofResolved, refs, List.mem_singleton] at hmem
      exact hmem ▸ known_typeRef hget
  | arrayOf element ih =>
    obtain ⟨inner, hinner, rfl⟩ := ofDeclared_arrayOf_eq_ok_iff.mp h
    intro ref hmem
    rw [refs] at hmem
    exact ih hinner ref hmem

theorem Model.known_of_parentOf {definition : Definition} {ref : TypeRef}
    (h : parentOf types settings definition = .ok (some ref)) : Known types settings ref := by
  rw [parentOf] at h
  split at h
  · cases h
  · next reference _ =>
    split at h
    · next name hresolve =>
      rw [Except.ok.injEq, Option.some.injEq] at h
      exact h ▸ known_typeRef ((TypeMap.resolve_eq_ok_iff _ _ _).mp hresolve)
    · cases h
    · cases h

/-- A model names only types that the table knows. -/
theorem Model.known_of_compile {definition : Definition} {model : Model}
    (h : compile types settings definition = .ok model) : ∀ ref ∈ model.refs, Known types settings ref := by
  obtain ⟨parent, properties, hparent, hprops, rfl⟩ := compile_eq_ok_iff.mp h
  intro ref hmem
  rw [refs, List.mem_append, Option.mem_toList, List.mem_flatMap] at hmem
  rcases hmem with hmem | ⟨property, hproperty, hmem⟩
  · have hsome : parent = some ref := hmem
    exact known_of_parentOf (hsome ▸ hparent)
  · rw [PropertyDescriptor.compileAll_eq_mapM] at hprops
    obtain ⟨spec, -, hspec⟩ := (Traversal.mem_of_mapM hprops property).mp hproperty
    obtain ⟨type, default, htype, -, rfl⟩ := PropertyDescriptor.compile_eq_ok_iff.mp hspec
    exact FieldType.known_of_ofDeclared htype ref (PropertyDescriptor.mem_refs_ofType hmem)

end Known

/-! ### Closure -/

namespace Generation

variable {settings : Settings} {definitions : List Definition} {generation : Generation}

/-- A name that the table of types gives to an identifier is one of the run. -/
theorem mem_keys_of_get? (h : ofDefinitions settings definitions = .ok generation) {id name : String}
    (hget : generation.types.get? id = some (.model name)) : name ∈ generation.models.keys := by
  have hlast := hget
  -- the definition that counts for the identifier is an object, so it is compiled in this run
  rw [types_of_ok h, TypeMap.get?_eq_model_iff] at hlast
  obtain ⟨definition, hdef, hobj, -⟩ := hlast
  rw [keys_of_ok h, List.mem_eraseDups, List.mem_map]
  refine ⟨definition, List.mem_filter.mpr ⟨Definition.mem_of_lastOf? hdef, hobj⟩, ?_⟩
  rw [Model.nameOf, Definition.id_of_lastOf? hdef, hget]

/-- A model is stored under its own name and is in the namespace of the settings. -/
theorem own_name_of_get? (h : ofDefinitions settings definitions = .ok generation) {name : String}
    {model : Model} (hget : generation.models.get? name = some model) :
    model.name = name ∧ model.scope = settings.scope := by
  obtain ⟨-, definition, -, -, -, hname, -, hm⟩ := (get?_eq_some_iff h name model).mp hget
  obtain ⟨parent, properties, -, -, rfl⟩ := Model.compile_eq_ok_iff.mp hm
  exact ⟨hname, rfl⟩

/-- A model of a run names only models of the run, in the namespace of the settings. -/
theorem closed_of_get? (h : ofDefinitions settings definitions = .ok generation) {name : String}
    {model : Model} (hget : generation.models.get? name = some model) :
    ∀ ref ∈ model.refs, ref.scope = settings.scope ∧ ref.name ∈ generation.models.keys := by
  obtain ⟨-, definition, -, -, -, -, -, hm⟩ := (get?_eq_some_iff h name model).mp hget
  intro ref hmem
  obtain ⟨hscope, id, hid⟩ := Model.known_of_compile hm ref hmem
  exact ⟨hscope, mem_keys_of_get? h hid⟩

end Generation

variable {settings : Settings} {definitions : List Definition} {generation : Generation}

/-- **Closure of references.** Every model of a run is stored under its own name in the namespace of the
settings, and every type that it names is a model of the run in that namespace. So when the models are
written without a fault, or a dry run has none, the files that are reported include that of every type
which a model names, and that of the base type when a model has no parent. -/
theorem references_closed (h : Generation.ofDefinitions settings definitions = .ok generation) :
    (∀ name model, generation.models.get? name = some model →
      model.name = name ∧ model.scope = settings.scope ∧
      ∀ ref ∈ model.refs, ref.scope = settings.scope ∧ ref.name ∈ generation.models.keys) ∧
    ∀ (dir : Path) (emitter : Emitter) (disk : Disk) (outcome : PublicationOutcome),
      (outcome = Publication.run ⟨dir, settings, emitter, generation.models.values⟩ disk ∨
        outcome = Publication.dryRun ⟨dir, settings, emitter, generation.models.values⟩ disk) →
      outcome.fault = none →
      ∀ model ∈ generation.models.values,
        (∀ ref ∈ model.refs, ref.file dir emitter ∈ outcome.files) ∧
        (model.parent = none → settings.baseRef.file dir emitter ∈ outcome.files) := by
  refine ⟨fun name model hget => ?_, fun dir emitter disk outcome houtcome hfault model hmodel => ?_⟩
  · obtain ⟨hname, hscope⟩ := Generation.own_name_of_get? h hget
    exact ⟨hname, hscope, Generation.closed_of_get? h hget⟩
  · have hfiles : outcome.files =
        (generation.models.values.map fun m => (settings.typeRef m.name).file dir emitter) ++
          [settings.baseRef.file dir emitter] := by
      rcases houtcome with rfl | rfl
      · exact Publication.files_of_run hfault
      · exact Publication.files_of_dryRun hfault
    refine ⟨fun ref hmem => ?_, fun _ => by simp [hfiles]⟩
    obtain ⟨name, hget⟩ := (Table.mem_values_iff _ model).mp hmodel
    obtain ⟨hscope, hkey⟩ := Generation.closed_of_get? h hget ref hmem
    obtain ⟨target, htarget⟩ := (Table.mem_keys_iff _ ref.name).mp hkey
    -- the file of the type is that of the model which is stored under its name
    have href : settings.typeRef target.name = ref := by
      rw [(Generation.own_name_of_get? h htarget).1, Settings.typeRef, ← hscope]
    rw [hfiles]
    refine List.mem_append_left _ (List.mem_map.mpr ⟨target, ?_, by rw [href]⟩)
    exact (Table.mem_values_iff _ target).mpr ⟨ref.name, htarget⟩

/-- Definitions that refer forward, back and to themselves. Two share an identifier, and the one that
does not count for it has the type name of a third. -/
def tangled : List Definition :=
  [{ id := "node", kind := .object, title := some "Leaf",
     properties := [⟨"next", .reference "#/definitions/node", none⟩] },
   { id := "tree", kind := .object, parent := some "#/definitions/leaf", required := ["roots"],
     properties := [⟨"roots", .arrayOf (.arrayOf (.reference "#/definitions/node")), none⟩] },
   { id := "node", kind := .object },
   { id := "leaf", kind := .object }]

/-- Their outlines are written to an empty disk, and with them those of all types that they name. -/
theorem tangled_closed :
    ∃ generation, Generation.ofDefinitions {} tangled = .ok generation ∧
      (generation.models.get? "Tree").map Model.refs = some [⟨"Model", "Leaf"⟩, ⟨"Model", "Node"⟩] ∧
      ∀ model ∈ generation.models.values, ∀ ref ∈ model.refs,
        ref.file ⟨"out"⟩ .outline ∈
          (Publication.run ⟨⟨"out"⟩, {}, .outline, generation.models.values⟩ {}).files := by
  obtain ⟨generation, h, hrefs, hfault⟩ : ∃ generation,
      Generation.ofDefinitions {} tangled = .ok generation ∧
      (generation.models.get? "Tree").map Model.refs = some [⟨"Model", "Leaf"⟩, ⟨"Model", "Node"⟩] ∧
      (Publication.run ⟨⟨"out"⟩, {}, .outline, generation.models.values⟩ {}).fault = none :=
    ⟨_, rfl, by decide +kernel, by decide +kernel⟩
  refine ⟨generation, h, hrefs, fun model hmodel => ?_⟩
  exact ((references_closed h).2 ⟨"out"⟩ .outline {} _ (.inl rfl) hfault model hmodel).1

end SchemaCompiler
