import SchemaCompiler.Proofs.Compilation

/-!
# What settings change

The namespace of the settings goes through the whole compiler: into a model, into the models that its
properties are made of, into its parent and into what its methods ask for. It stays a label there.
Compiling under other settings is compiling and then replacing the namespace
(`Model.compile_rescope`), since nothing that is computed from a type on the way looks at it: neither
the documented type, nor the default, nor the names of the methods. So runs under two settings fail
alike or yield the same models up to their namespace, and the name of the base type has no part in a
run at all (`settings_only_rename`).
-/

namespace SchemaCompiler

open Traversal

/-! ### Replacing the namespace -/

/-- A type of the same name in another namespace. -/
def TypeRef.rescope (scope : String) (ref : TypeRef) : TypeRef :=
  { ref with scope }

/-- A field type with the models at all depths in another namespace. -/
def FieldType.rescope (scope : String) : FieldType → FieldType
  | model ref => model (ref.rescope scope)
  | collection element => collection (element.rescope scope)
  | type => type

/-- A method that asks for a model in another namespace. -/
def Method.rescope (scope : String) (method : Method) : Method :=
  { method with hint := method.hint.map (TypeRef.rescope scope) }

/-- A property with the models that it names in another namespace. -/
def PropertyDescriptor.rescope (scope : String) (property : PropertyDescriptor) :
    PropertyDescriptor :=
  { property with
    type := property.type.rescope scope
    setter := property.setter.rescope scope
    adder := property.adder.map (Method.rescope scope) }

/-- A model with all that it names, and itself, in another namespace. -/
def Model.rescope (scope : String) (model : Model) : Model :=
  { model with
    scope
    parent := model.parent.map (TypeRef.rescope scope)
    properties := model.properties.map (PropertyDescriptor.rescope scope) }

/-! ### Types -/

namespace FieldType

variable (scope : String) (type : FieldType)

@[simp] theorem docType_rescope : (type.rescope scope).docType = type.docType := by
  induction type with
  | primitive keyword => rfl
  | model ref => rfl
  | collection element ih => simp [rescope, docType, ih]
  | mixed => rfl
  | unknown => rfl

@[simp] theorem hint_rescope :
    (type.rescope scope).hint = type.hint.map (TypeRef.rescope scope) := by
  cases type <;> rfl

@[simp] theorem element_rescope :
    (type.rescope scope).element = type.element.map (FieldType.rescope scope) := by
  cases type <;> rfl

@[simp] theorem ofType?_rescope : Default.ofType? (type.rescope scope) = Default.ofType? type := by
  cases type <;> rfl

theorem ofKeyword_rescope (keyword : String) : (ofKeyword keyword).rescope scope = ofKeyword keyword := by
  unfold ofKeyword
  split_ifs <;> rfl

/-- What a definition stands for is the same type in another namespace. -/
theorem ofResolved_rescope (settings others : Settings) (resolved : Resolved) :
    ofResolved others resolved = (ofResolved settings resolved).rescope others.scope := by
  cases resolved with
  | model name => rfl
  | primitive keyword => exact (ofKeyword_rescope others.scope keyword).symm

/-- A declared type has the same fault under all settings, or the same type up to the namespace. -/
theorem ofDeclared_rescope (types : TypeMap) (settings others : Settings) (declared : DeclaredType) :
    ofDeclared types others declared =
      (ofDeclared types settings declared).map (FieldType.rescope others.scope) := by
  induction declared with
  | primitive keyword => simp [ofDeclared, Except.map, ofKeyword_rescope]
  | reference text =>
    simp only [ofDeclared]
    cases types.resolve text with
    | error fault => rfl
    | ok resolved => simp [Except.map, ofResolved_rescope settings others resolved]
  | arrayOf element ih =>
    simp only [ofDeclared, ih]
    cases ofDeclared types settings element <;> rfl
  | mixed => rfl
  | unknown => rfl

end FieldType

/-! ### Properties -/

namespace PropertyDescriptor

variable (scope : String)

theorem setterOf_rescope (name : String) (type : FieldType) :
    setterOf name (type.rescope scope) = (setterOf name type).rescope scope := by
  simp [setterOf, Method.rescope]

theorem adderOf_rescope (name : String) (type : FieldType) :
    adderOf name (type.rescope scope) = (adderOf name type).map (Method.rescope scope) := by
  simp only [adderOf, FieldType.element_rescope, Option.map_map]
  congr 1
  funext element
  simp [Method.rescope]

/-- All that is made of a type and shows up in a property carries the namespace as a label. -/
theorem ofType_rescope (spec : PropertySpec) (required : Bool) (type : FieldType)
    (default : Option Default) :
    ofType spec required (type.rescope scope) default =
      (ofType spec required type default).rescope scope := by
  simp [ofType, rescope, setterOf_rescope, adderOf_rescope]

theorem compile_rescope (types : TypeMap) (settings others : Settings) (spec : PropertySpec)
    (required : Bool) : compile types others spec required =
      (compile types settings spec required).map (PropertyDescriptor.rescope others.scope) := by
  simp only [compile, FieldType.ofDeclared_rescope types settings others]
  cases FieldType.ofDeclared types settings spec.type with
  | error fault => rfl
  | ok type =>
    have hdefault : defaultOf spec.name (type.rescope others.scope) required =
        defaultOf spec.name type required := by
      simp [defaultOf]
    simp only [Except.map, hdefault]
    cases defaultOf spec.name type required with
    | error fault => rfl
    | ok default => simp only [ofType_rescope]

end PropertyDescriptor

/-! ### Models -/

namespace Model

variable (types : TypeMap) (settings others : Settings)

theorem parentOf_rescope (definition : Definition) :
    parentOf types others definition =
      (parentOf types settings definition).map (Option.map (TypeRef.rescope others.scope)) := by
  simp only [parentOf]
  cases definition.parent with
  | none => rfl
  | some reference =>
    simp only
    cases types.resolve reference with
    | error fault => rfl
    | ok resolved => cases resolved <;> rfl

/-- A definition has the same fault under all settings, or the same model up to the namespace. -/
theorem compile_rescope (definition : Definition) :
    compile types others definition =
      (compile types settings definition).map (Model.rescope others.scope) := by
  have hproperties : PropertyDescriptor.compileAll types others definition definition.properties =
      (PropertyDescriptor.compileAll types settings definition definition.properties).map
        (List.map (PropertyDescriptor.rescope others.scope)) := by
    simp only [PropertyDescriptor.compileAll_eq_mapM, ← mapM_map_result,
      PropertyDescriptor.compile_rescope types settings others]
  simp only [compile, parentOf_rescope types settings others, hproperties]
  cases parentOf types settings definition with
  | error fault => rfl
  | ok parent =>
    simp only [Except.map]
    cases PropertyDescriptor.compileAll types settings definition definition.properties <;> rfl

theorem compileAll_rescope (definitions : List Definition) :
    compileAll types others definitions =
      (compileAll types settings definitions).map (List.map (Model.rescope others.scope)) := by
  simp only [compileAll_eq_mapM, ← mapM_map_result, ← compile_rescope types settings others]

/-- What there is to say about compiling does not depend on the settings. -/
theorem noticesOfAll_rescope (definitions : List Definition) :
    noticesOfAll types others definitions = noticesOfAll types settings definitions := by
  induction definitions with
  | nil => rfl
  | cons definition later ih =>
    simp only [noticesOfAll, ih, compile_rescope types settings others]
    cases compile types settings definition with
    | error fault => rfl
    | ok model => simp [Except.map, rescope]

end Model

/-! ### Runs -/

/-- A table of models in another namespace has them at the same places under the same names. -/
theorem Table.entries_rescope (scope : String) (models : List Model) :
    (Table.ofList ((models.map (Model.rescope scope)).map fun model => (model.name, model))).entries =
      (Table.ofList (models.map fun model => (model.name, model))).entries.map fun entry =>
        (entry.1, entry.2.rescope scope) := by
  rw [entries_ofList, entries_ofList, map_ofPairs fun _ => Model.rescope scope, List.map_map,
    List.map_map]
  rfl

/-- **Settings only rename.** Under any two settings the same lists of definitions fail, with the same
fault. Where they do not, the tables of types are the same, and the models have the same names in the
same order and differ only in the namespace, which is that of the settings wherever it stands. The base
type has no influence at all, and the settings none on what is logged. -/
theorem settings_only_rename (settings others : Settings) (definitions : List Definition) :
    (∀ fault, Generation.ofDefinitions settings definitions = .error fault ↔
      Generation.ofDefinitions others definitions = .error fault) ∧
    (∀ generation, Generation.ofDefinitions settings definitions = .ok generation →
      ∃ renamed, Generation.ofDefinitions others definitions = .ok renamed ∧
        renamed.types = generation.types ∧
        renamed.models.keys = generation.models.keys ∧
        renamed.models.entries = generation.models.entries.map fun entry =>
          (entry.1, entry.2.rescope others.scope)) ∧
    (∀ baseType, Generation.ofDefinitions { settings with baseType } definitions =
      Generation.ofDefinitions settings definitions) ∧
    Generation.notices others definitions = Generation.notices settings definitions := by
  have hmodels := Model.compileAll_rescope (.ofDefinitions definitions) settings others definitions
  refine ⟨fun fault => ?_, fun generation h => ?_, fun baseType => ?_, ?_⟩
  · unfold Generation.ofDefinitions
    simp only [hmodels]
    cases Model.compileAll (.ofDefinitions definitions) settings definitions <;> simp [Except.map]
  · unfold Generation.ofDefinitions at h ⊢
    simp only [hmodels]
    cases hcompiled : Model.compileAll (.ofDefinitions definitions) settings definitions with
    | error fault => simp [hcompiled] at h
    | ok models =>
      simp only [hcompiled, Except.ok.injEq] at h
      subst h
      have hentries := Table.entries_rescope others.scope models
      refine ⟨_, rfl, rfl, ?_, hentries⟩
      rw [Table.keys, Entries.keys, hentries, List.map_map]
      rfl
  · -- the run is its own renaming, and the renaming only asks for the namespace
    have hsame : Model.compileAll (.ofDefinitions definitions) { settings with baseType } definitions =
        Model.compileAll (.ofDefinitions definitions) settings definitions := by
      rw [Model.compileAll_rescope _ settings { settings with baseType }]
      exact (Model.compileAll_rescope _ settings settings definitions).symm
    unfold Generation.ofDefinitions
    simp only [hsame]
  · simp only [Generation.notices, Model.noticesOfAll_rescope _ settings others]

/-- A box extends a part and holds parts, one of them directly and others in rows. -/
def workshop : List Definition :=
  [{ id := "part", kind := .object },
   { id := "box", kind := .object, parent := some "#/definitions/part",
     properties := [⟨"lid", .reference "#/definitions/part", none⟩,
       ⟨"rows", .arrayOf (.arrayOf (.reference "#/definitions/part")), none⟩] }]

/-- In another namespace the box extends the part of that namespace, takes it as its lid, and holds
rows of it. -/
theorem workshop_renamed : ∃ generation renamed,
    Generation.ofDefinitions {} workshop = .ok generation ∧
    Generation.ofDefinitions { scope := "Acme::Api", baseType := "Root" } workshop = .ok renamed ∧
    renamed.models.entries = generation.models.entries.map (fun entry =>
      (entry.1, entry.2.rescope "Acme::Api")) ∧
    (renamed.models.entries.map fun entry => (entry.2.parent,
      entry.2.properties.map fun property => (property.type, property.setter.hint))) =
      [(none, []),
       (some ⟨"Acme::Api", "Part"⟩,
        [(.model ⟨"Acme::Api", "Part"⟩, some ⟨"Acme::Api", "Part"⟩),
         (.collection (.collection (.model ⟨"Acme::Api", "Part"⟩)), none)])] := by
  obtain ⟨-, hrenamed, -, -⟩ :=
    settings_only_rename {} { scope := "Acme::Api", baseType := "Root" } workshop
  obtain ⟨renamed, hok, -, -, hentries⟩ := hrenamed _ rfl
  refine ⟨_, renamed, rfl, hok, hentries, ?_⟩
  rw [hentries]
  decide

end SchemaCompiler
