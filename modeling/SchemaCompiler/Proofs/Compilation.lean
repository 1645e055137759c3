import SchemaCompiler.Generation
import SchemaCompiler.Proofs.TypeMap

/-!
# What compiling can do

One law for each step of the compiler: when it succeeds and with what (`compile_eq_ok_iff`), which
fault it has (`fault?_compile`), and which answers of the table of types it depends on
(`compile_congr`). Of a whole run: its models are those of the object definitions in order
(`ofDefinitions_eq_ok_iff`), so a name has the model of the last object that is compiled under it
(`get?_eq_some_iff`), and the names come in the order in which they are first compiled
(`keys_of_ok`).
-/

namespace SchemaCompiler

open Traversal

/-! ### Declared types -/

/-- The reference in a declared type, under any number of arrays. -/
def DeclaredType.reference? : DeclaredType → Option String
  | reference text => some text
  | arrayOf element => element.reference?
  | _ => none

namespace FieldType

variable (types : TypeMap) (settings : Settings)

theorem ofDeclared_reference_eq_ok_iff {types : TypeMap} {settings : Settings} {text : String}
    {type : FieldType} :
    ofDeclared types settings (.reference text) = .ok type ↔
      ∃ resolved, types.get? (Reference.target text) = some resolved ∧
        ofResolved settings resolved = type := by
  rw [ofDeclared]
  cases h : types.resolve text with
  | ok resolved =>
    rw [TypeMap.resolve_eq_ok_iff] at h
    simp [h]
  | error fault =>
    simp only [reduceCtorEq, false_iff, not_exists, not_and]
    intro resolved hget
    rw [(TypeMap.resolve_eq_ok_iff types text resolved).mpr hget] at h
    cases h

theorem ofDeclared_arrayOf_eq_ok_iff {types : TypeMap} {settings : Settings} {element : DeclaredType}
    {type : FieldType} :
    ofDeclared types settings (.arrayOf element) = .ok type ↔
      ∃ inner, ofDeclared types settings element = .ok inner ∧ collection inner = type := by
  rw [ofDeclared]
  cases ofDeclared types settings element <;> simp

/-- A declared type has a fault only through the reference in it. -/
theorem fault?_ofDeclared (declared : DeclaredType) :
    fault? (ofDeclared types settings declared) =
      declared.reference?.bind fun reference => fault? (types.resolve reference) := by
  induction declared with
  | primitive keyword => rfl
  | mixed => rfl
  | unknown => rfl
  | reference text =>
    rw [ofDeclared, DeclaredType.reference?, Option.bind_some]
    cases types.resolve text <;> rfl
  | arrayOf element ih =>
    rw [ofDeclared, DeclaredType.reference?, ← ih]
    cases ofDeclared types settings element <;> rfl

variable {types} in
/-- A declared type depends on what the table says of the reference in it, and on nothing else. -/
theorem ofDeclared_congr {others : TypeMap} {declared : DeclaredType}
    (h : ∀ reference ∈ declared.reference?,
      types.get? (Reference.target reference) = others.get? (Reference.target reference)) :
    ofDeclared types settings declared = ofDeclared others settings declared := by
  induction declared with
  | primitive keyword => rfl
  | mixed => rfl
  | unknown => rfl
  | reference text => rw [ofDeclared, ofDeclared, TypeMap.resolve_congr (h text rfl)]
  | arrayOf element ih => rw [ofDeclared, ofDeclared, ih h]

end FieldType

/-! ### Properties -/

/-- A primitive has a default when its keyword has a zero value. -/
theorem Default.ofType?_primitive_eq_ok_iff {keyword : String} {default : Option Default} :
    ofType? (.primitive keyword) = .ok default ↔
      ∃ zero, ofKeyword? keyword = some zero ∧ some zero = default := by
  rw [ofType?]
  cases ofKeyword? keyword <;> simp

namespace PropertyDescriptor

variable (types : TypeMap) (settings : Settings)

/-- A required property has no default, and every other one that of its type. -/
theorem defaultOf_eq_ok_iff {name : String} {type : FieldType} {required : Bool}
    {default : Option Default} :
    defaultOf name type required = .ok default ↔
      required = true ∧ default = none ∨
        required = false ∧ Default.ofType? type = .ok default := by
  rw [defaultOf]
  cases required with
  | true => simp [eq_comm]
  | false => cases Default.ofType? type <;> simp

/-- A property is compiled from its type and its default. -/
theorem compile_eq_ok_iff {types : TypeMap} {settings : Settings} {spec : PropertySpec}
    {required : Bool} {property : PropertyDescriptor} :
    compile types settings spec required = .ok property ↔
      ∃ type default, FieldType.ofDeclared types settings spec.type = .ok type ∧
        defaultOf spec.name type required = .ok default ∧
        ofType spec required type default = property := by
  rw [compile]
  cases FieldType.ofDeclared types settings spec.type with
  | error fault => simp
  | ok type => cases h : defaultOf spec.name type required <;> simp [h]

/-- A compiled property has the name of what it is compiled from. -/
theorem name_of_compile {types : TypeMap} {settings : Settings} {spec : PropertySpec}
    {required : Bool} {property : PropertyDescriptor}
    (h : compile types settings spec required = .ok property) : property.name = spec.name := by
  obtain ⟨type, default, -, -, rfl⟩ := compile_eq_ok_iff.mp h
  rfl

theorem compileAll_eq_mapM (definition : Definition) (specs : List PropertySpec) :
    compileAll types settings definition specs =
      specs.mapM fun spec => compile types settings spec (definition.isRequired spec.name) := by
  induction specs with
  | nil => rfl
  | cons spec specs ih =>
    rw [compileAll, List.mapM_cons, ← ih]
    cases compile types settings spec (definition.isRequired spec.name) with
    | error fault => rfl
    | ok property => cases compileAll types settings definition specs <;> rfl

end PropertyDescriptor

/-! ### Models -/

/-- The references in a definition: that to its parent, then those in its properties. -/
def Definition.references (definition : Definition) : List String :=
  definition.parent.toList ++ definition.properties.filterMap (·.type.reference?)

namespace Model

variable (types : TypeMap) (settings : Settings)

theorem compile_eq_ok_iff {types : TypeMap} {settings : Settings} {definition : Definition}
    {model : Model} :
    compile types settings definition = .ok model ↔
      ∃ parent properties, parentOf types settings definition = .ok parent ∧
        PropertyDescriptor.compileAll types settings definition definition.properties =
          .ok properties ∧
        { name := nameOf types definition
          scope := settings.scope
          parent
          description := definition.description.filter (!Text.isBlankText ·)
          properties } = model := by
  rw [compile]
  cases parentOf types settings definition with
  | error fault => simp
  | ok parent =>
    cases PropertyDescriptor.compileAll types settings definition definition.properties <;> simp

/-- A model is compiled under the name that the table gives its definition. -/
theorem name_of_compile {types : TypeMap} {settings : Settings} {definition : Definition}
    {model : Model} (h : compile types settings definition = .ok model) :
    model.name = nameOf types definition := by
  obtain ⟨parent, properties, -, -, rfl⟩ := compile_eq_ok_iff.mp h
  rfl

/-- A model has the properties of its definition, in their order. -/
theorem property_names_of_compile {types : TypeMap} {settings : Settings} {definition : Definition}
    {model : Model} (h : compile types settings definition = .ok model) :
    model.properties.map (·.name) = definition.properties.map (·.name) := by
  obtain ⟨parent, properties, -, hprops, rfl⟩ := compile_eq_ok_iff.mp h
  rw [PropertyDescriptor.compileAll_eq_mapM] at hprops
  exact map_eq_of_mapM hprops fun _ _ => PropertyDescriptor.name_of_compile

theorem fault?_parentOf (definition : Definition) :
    fault? (parentOf types settings definition) =
      definition.parent.bind fun reference => fault? (types.resolve reference) := by
  rw [parentOf]
  cases definition.parent with
  | none => rfl
  | some reference =>
    simp only [Option.bind_some]
    cases types.resolve reference with
    | error fault => rfl
    | ok resolved => cases resolved <;> rfl

/-- A definition has the fault of its parent, else that of the first property that has one. -/
theorem fault?_compile (definition : Definition) :
    fault? (compile types settings definition) =
      (fault? (parentOf types settings definition)).or
        (definition.properties.findSome? fun spec =>
          fault? (PropertyDescriptor.compile types settings spec (definition.isRequired spec.name))) := by
  rw [← fault?_mapM, ← PropertyDescriptor.compileAll_eq_mapM, compile]
  cases parentOf types settings definition with
  | error fault => rfl
  | ok parent =>
    cases PropertyDescriptor.compileAll types settings definition definition.properties <;> rfl

theorem compileAll_eq_mapM (definitions : List Definition) :
    compileAll types settings definitions =
      (definitions.filter (·.isObject)).mapM (compile types settings) := by
  induction definitions with
  | nil => rfl
  | cons definition later ih =>
    rw [compileAll]
    by_cases h : definition.isObject = true
    · rw [if_pos h, List.filter_cons_of_pos h, List.mapM_cons, ← ih]
      cases compile types settings definition with
      | error fault => rfl
      | ok model => cases compileAll types settings later <;> rfl
    · rw [if_neg h, List.filter_cons_of_neg h, ih]

variable {types} in
/-- The model of a definition depends on what the table says of its identifier and of the
references in it, and on nothing else. -/
theorem compile_congr {others : TypeMap} {definition : Definition}
    (hid : types.get? definition.id = others.get? definition.id)
    (hrefs : ∀ reference ∈ definition.references,
      types.get? (Reference.target reference) = others.get? (Reference.target reference)) :
    compile types settings definition = compile others settings definition := by
  have hname : nameOf types definition = nameOf others definition := by
    rw [nameOf, nameOf, hid]
  have hparent : parentOf types settings definition = parentOf others settings definition := by
    rw [parentOf, parentOf]
    cases h : definition.parent with
    | none => rfl
    | some reference =>
      have hmem : reference ∈ definition.references := by simp [Definition.references, h]
      simp only [TypeMap.resolve_congr (hrefs reference hmem)]
  have hprops : PropertyDescriptor.compileAll types settings definition definition.properties =
      PropertyDescriptor.compileAll others settings definition definition.properties := by
    rw [PropertyDescriptor.compileAll_eq_mapM, PropertyDescriptor.compileAll_eq_mapM]
    refine mapM_congr fun spec hspec => ?_
    rw [PropertyDescriptor.compile, PropertyDescriptor.compile,
      FieldType.ofDeclared_congr settings fun reference href => hrefs reference ?_]
    exact List.mem_append_right _ (List.mem_filterMap.mpr ⟨spec, hspec, href⟩)
  rw [compile, compile, hparent, hprops, hname]

end Model

/-! ### Runs -/

namespace Generation

variable {settings : Settings} {definitions : List Definition} {generation : Generation}

/-- A run yields the table of types, and under their names the models of the objects in order. -/
theorem ofDefinitions_eq_ok_iff :
    ofDefinitions settings definitions = .ok generation ↔
      ∃ models, (definitions.filter (·.isObject)).mapM
          (Model.compile (.ofDefinitions definitions) settings) = .ok models ∧
        ⟨.ofDefinitions definitions, .ofList (models.map fun model => (model.name, model))⟩ =
          generation := by
  rw [ofDefinitions, Model.compileAll_eq_mapM]
  cases (definitions.filter (·.isObject)).mapM
    (Model.compile (.ofDefinitions definitions) settings) <;> simp

theorem types_of_ok (h : ofDefinitions settings definitions = .ok generation) :
    generation.types = .ofDefinitions definitions := by
  obtain ⟨models, -, rfl⟩ := ofDefinitions_eq_ok_iff.mp h
  rfl

/-- A run has the fault of the first object that has one. -/
theorem fault?_ofDefinitions (settings : Settings) (definitions : List Definition) :
    fault? (ofDefinitions settings definitions) =
      (definitions.filter (·.isObject)).findSome? fun definition =>
        fault? (Model.compile (.ofDefinitions definitions) settings definition) := by
  rw [← fault?_mapM, ← Model.compileAll_eq_mapM, ofDefinitions]
  cases Model.compileAll (.ofDefinitions definitions) settings definitions <;> rfl

/-- The names of a run, each once, in the order in which objects are first compiled under them. -/
theorem keys_of_ok (h : ofDefinitions settings definitions = .ok generation) :
    generation.models.keys =
      ((definitions.filter (·.isObject)).map (Model.nameOf generation.types)).eraseDups := by
  obtain ⟨models, hmodels, rfl⟩ := ofDefinitions_eq_ok_iff.mp h
  rw [Table.keys_ofList, List.map_map]
  congr 1
  exact map_eq_of_mapM hmodels fun _ _ => Model.name_of_compile

/-- A name has the model of the last object that is compiled under it. -/
theorem get?_eq_some_iff (h : ofDefinitions settings definitions = .ok generation) (name : String)
    (model : Model) :
    generation.models.get? name = some model ↔
      ∃ earlier definition later, definitions = earlier ++ definition :: later ∧
        definition.isObject ∧ Model.nameOf generation.types definition = name ∧
        (∀ d ∈ later, d.isObject → Model.nameOf generation.types d ≠ name) ∧
        Model.compile generation.types settings definition = .ok model := by
  obtain ⟨models, hmodels, rfl⟩ := ofDefinitions_eq_ok_iff.mp h
  -- the last model with the name is that of the last object compiled under it
  rw [Table.get?_ofList_map (fun model : Model => model.name) (fun model => model), Option.map_id',
    find?_reverse_mapM (fun d => Model.nameOf (.ofDefinitions definitions) d = name) _ hmodels
      fun d m hm => by rw [Model.name_of_compile hm],
    ← List.filter_reverse, List.find?_filter]
  simp only [find?_reverse_eq_some_iff]
  constructor
  · rintro ⟨definition, ⟨hkind, earlier, later, hsplit, absent⟩, hm⟩
    simp only [decide_eq_true_eq] at hkind
    refine ⟨earlier, definition, later, hsplit, hkind.1, hkind.2, fun d hd hobj => ?_, hm⟩
    simpa [hobj] using absent d hd
  · rintro ⟨earlier, definition, later, hsplit, hobj, hname, absent, hm⟩
    refine ⟨definition, ⟨by simp [hobj, hname], earlier, later, hsplit, fun d hd => ?_⟩, hm⟩
    simpa using absent d hd

/-- A model of a run is that of some object definition. -/
theorem exists_compile_of_mem_values (h : ofDefinitions settings definitions = .ok generation)
    {model : Model} (hmodel : model ∈ generation.models.values) :
    ∃ definition ∈ definitions, definition.isObject ∧
      Model.compile generation.types settings definition = .ok model := by
  obtain ⟨name, hget⟩ := (Table.mem_values_iff _ model).mp hmodel
  obtain ⟨earlier, definition, later, hsplit, hobj, -, -, hm⟩ := (get?_eq_some_iff h name model).mp hget
  exact ⟨definition, by simp [hsplit], hobj, hm⟩

/-- A property of a model of a run is that of some declared property. -/
theorem exists_compile_of_mem_properties (h : ofDefinitions settings definitions = .ok generation)
    {model : Model} (hmodel : model ∈ generation.models.values) {property : PropertyDescriptor}
    (hproperty : property ∈ model.properties) :
    ∃ definition ∈ definitions, ∃ spec ∈ definition.properties,
      PropertyDescriptor.compile generation.types settings spec (definition.isRequired spec.name) =
        .ok property := by
  obtain ⟨definition, hdefinition, -, hm⟩ := exists_compile_of_mem_values h hmodel
  obtain ⟨parent, properties, -, hproperties, rfl⟩ := Model.compile_eq_ok_iff.mp hm
  rw [PropertyDescriptor.compileAll_eq_mapM] at hproperties
  obtain ⟨spec, hspec, hcompiled⟩ := (mem_of_mapM hproperties property).mp hproperty
  exact ⟨definition, hdefinition, spec, hspec, hcompiled⟩

end Generation

end SchemaCompiler
