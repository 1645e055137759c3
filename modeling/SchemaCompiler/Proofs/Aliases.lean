import SchemaCompiler.Proofs.Arrays

/-!
# Aliases

A definition of a primitive, or of any value, is another name of a type that could be declared in place
(`Kind.inPlace?`). `inline` replaces every reference to such a definition by that type, below any number
of arrays, and leaves the references to objects as they are.

Inlining never shows. The two sides of it are compiled in different ways: what a reference to a keyword
stands for is looked up and then turned into a type, while a keyword in place is classified first, and
`array` becomes an array of anything there. They meet in the type that the keyword names
(`ofDeclared_inPlace`). So a declared type compiles alike with and without aliases (`ofDeclared_inline`),
so does a property (`compile_inline`), and a run over definitions whose aliases have been inlined is the
run over the definitions themselves (`run_inline`).
-/

namespace SchemaCompiler

/-- The type in place that definitions of a kind are another name of. Objects have a name of their own. -/
def Kind.inPlace? : Kind → Option DeclaredType
  | object => none
  | primitive keyword => some (.ofSchema { type := some (.text keyword) })
  | mixed => some .mixed

/-- A declared type with the references to other names replaced by the types that they name. -/
def DeclaredType.inline (definitions : List Definition) : DeclaredType → DeclaredType
  | reference text =>
    ((Definition.lastOf? definitions (Reference.target text)).bind (·.kind.inPlace?)).getD
      (reference text)
  | arrayOf element => arrayOf (element.inline definitions)
  | declared => declared

/-- A property with the other names in its type replaced. -/
def PropertySpec.inline (definitions : List Definition) (spec : PropertySpec) : PropertySpec :=
  { spec with type := spec.type.inline definitions }

/-- A definition with the other names in its properties replaced. -/
def Definition.inline (definitions : List Definition) (definition : Definition) : Definition :=
  { definition with properties := definition.properties.map (PropertySpec.inline definitions) }

/-! ### Inlining -/

namespace DeclaredType

variable (definitions : List Definition)

/-- Inlining goes through arrays. -/
theorem inline_arrays (n : Nat) (declared : DeclaredType) :
    (arrayOf^[n] declared).inline definitions = arrayOf^[n] (declared.inline definitions) := by
  induction n with
  | zero => rfl
  | succ n ih => rw [Function.iterate_succ_apply', inline, ih, Function.iterate_succ_apply']

variable {definitions}

/-- With distinct identifiers a reference to another name of a type is replaced by that type. -/
theorem inline_reference (distinct : (definitions.map (·.id)).Nodup) {definition : Definition}
    (hmem : definition ∈ definitions) {text : String} (htarget : Reference.target text = definition.id)
    {declared : DeclaredType} (h : definition.kind.inPlace? = some declared) :
    (reference text).inline definitions = declared := by
  rw [inline, htarget, Definition.lastOf?_of_nodup distinct hmem, Option.bind_some, h, Option.getD_some]

end DeclaredType

/-! ### Types -/

namespace FieldType

variable (types : TypeMap) (settings : Settings)

/-- A keyword in place compiles to the type that the keyword names. -/
theorem ofDeclared_keyword (keyword : String) :
    ofDeclared types settings (.ofSchema { type := some (.text keyword) }) = .ok (ofKeyword keyword) := by
  by_cases h : keyword = "array"
  · subst h
    rfl
  · simp only [DeclaredType.ofSchema, DeclaredType.ofNode, if_neg h, ofDeclared]

/-- The type in place of a definition compiles to what the definition stands for. -/
theorem ofDeclared_inPlace {definition : Definition} {declared : DeclaredType}
    (h : definition.kind.inPlace? = some declared) :
    ofDeclared types settings declared = .ok (ofResolved settings definition.resolved) := by
  rw [Definition.resolved]
  cases hkind : definition.kind with
  | object => simp [hkind, Kind.inPlace?] at h
  | primitive keyword =>
    rw [hkind, Kind.inPlace?, Option.some.injEq] at h
    subst h
    exact ofDeclared_keyword types settings keyword
  | mixed =>
    rw [hkind, Kind.inPlace?, Option.some.injEq] at h
    subst h
    rfl

/-- A declared type compiles alike with and without other names. -/
theorem ofDeclared_inline (definitions : List Definition) (declared : DeclaredType) :
    ofDeclared (.ofDefinitions definitions) settings (declared.inline definitions) =
      ofDeclared (.ofDefinitions definitions) settings declared := by
  induction declared with
  | primitive keyword => rfl
  | mixed => rfl
  | unknown => rfl
  | arrayOf element ih => rw [DeclaredType.inline, ofDeclared, ofDeclared, ih]
  | reference text =>
    rw [DeclaredType.inline]
    cases h : (Definition.lastOf? definitions (Reference.target text)).bind (·.kind.inPlace?) with
    | none => rfl
    | some declared =>
      obtain ⟨definition, hlast, hplace⟩ := Option.bind_eq_some_iff.mp h
      rw [Option.getD_some, ofDeclared_inPlace _ settings hplace, eq_comm,
        ofDeclared_reference_eq_ok_iff]
      refine ⟨definition.resolved, ?_, rfl⟩
      rw [TypeMap.get?_ofDefinitions, hlast, Option.map_some]

end FieldType

/-! ### Properties and runs -/

theorem PropertyDescriptor.compile_inline (definitions : List Definition) (settings : Settings)
    (spec : PropertySpec) (required : Bool) :
    compile (.ofDefinitions definitions) settings (spec.inline definitions) required =
      compile (.ofDefinitions definitions) settings spec required := by
  rw [compile, compile, PropertySpec.inline, FieldType.ofDeclared_inline]
  rfl

/-- Inlining is not seen by what a definition stands for. -/
theorem TypeMap.ofDefinitions_inline (definitions others : List Definition) :
    ofDefinitions (others.map (Definition.inline definitions)) = ofDefinitions others := by
  rw [ofDefinitions, List.map_map]
  rfl

/-- A definition compiles alike with and without other names. -/
theorem Model.compile_inline (definitions : List Definition) (settings : Settings)
    (definition : Definition) :
    compile (.ofDefinitions definitions) settings (definition.inline definitions) =
      compile (.ofDefinitions definitions) settings definition := by
  have hproperties : PropertyDescriptor.compileAll (.ofDefinitions definitions) settings
      (definition.inline definitions) (definition.inline definitions).properties =
      PropertyDescriptor.compileAll (.ofDefinitions definitions) settings definition
        definition.properties := by
    rw [PropertyDescriptor.compileAll_eq_mapM, PropertyDescriptor.compileAll_eq_mapM,
      Definition.inline, List.mapM_map]
    exact Traversal.mapM_congr fun spec _ =>
      PropertyDescriptor.compile_inline definitions settings spec _
  rw [compile, compile, hproperties]
  rfl

/-- A run does not change when all other names are replaced by what they name. -/
theorem Generation.run_inline (settings : Settings) (definitions : List Definition) :
    ofDefinitions settings (definitions.map (Definition.inline definitions)) =
      ofDefinitions settings definitions := by
  have hmodels : Model.compileAll (.ofDefinitions definitions) settings
      (definitions.map (Definition.inline definitions)) =
      Model.compileAll (.ofDefinitions definitions) settings definitions := by
    rw [Model.compileAll_eq_mapM, Model.compileAll_eq_mapM, List.filter_map, List.mapM_map]
    exact Traversal.mapM_congr fun definition _ =>
      Model.compile_inline definitions settings definition
  rw [ofDefinitions, ofDefinitions, TypeMap.ofDefinitions_inline, hmodels]

/-- **Aliases.** Among definitions with distinct identifiers a property whose type is a reference to a
primitive, below any number of arrays, compiles to the same descriptor or the same fault as the property
whose type is the bare keyword of the primitive below as many arrays, whatever the keyword is. A reference
to a definition of any value compiles like any value. -/
theorem aliases_transparent {definitions : List Definition}
    (distinct : (definitions.map (·.id)).Nodup) {definition : Definition}
    (hmem : definition ∈ definitions) {reference : String}
    (htarget : Reference.target reference = definition.id) (settings : Settings) (n : Nat)
    (name : String) (description : Option String) (required : Bool) :
    (∀ keyword, definition.kind = .primitive keyword →
      PropertyDescriptor.compile (.ofDefinitions definitions) settings
          ⟨name, DeclaredType.arrayOf^[n] (.reference reference), description⟩ required =
        PropertyDescriptor.compile (.ofDefinitions definitions) settings
          ⟨name, DeclaredType.arrayOf^[n] (.ofSchema { type := some (.text keyword) }), description⟩
          required) ∧
    (definition.kind = .mixed →
      PropertyDescriptor.compile (.ofDefinitions definitions) settings
          ⟨name, DeclaredType.arrayOf^[n] (.reference reference), description⟩ required =
        PropertyDescriptor.compile (.ofDefinitions definitions) settings
          ⟨name, DeclaredType.arrayOf^[n] .mixed, description⟩ required) := by
  have hinPlace : ∀ declared, definition.kind.inPlace? = some declared →
      PropertyDescriptor.compile (.ofDefinitions definitions) settings
          ⟨name, DeclaredType.arrayOf^[n] (.reference reference), description⟩ required =
        PropertyDescriptor.compile (.ofDefinitions definitions) settings
          ⟨name, DeclaredType.arrayOf^[n] declared, description⟩ required := by
    intro declared h
    rw [← PropertyDescriptor.compile_inline, PropertySpec.inline, DeclaredType.inline_arrays,
      DeclaredType.inline_reference distinct hmem htarget h]
  exact ⟨fun keyword hkind => hinPlace _ (by rw [hkind, Kind.inPlace?]),
    fun hkind => hinPlace _ (by rw [hkind, Kind.inPlace?])⟩

/-- Other names of an array, of any value by its keyword and by its kind, and of a type without a
default. -/
def otherNames : List Definition :=
  [{ id := "list", kind := .primitive "array" }, { id := "any", kind := .primitive "mixed" },
   { id := "a/b", kind := .mixed }, { id := "blob", kind := .primitive "object" }]

/-- Rows of lists are collections of collections of collections of anything, an optional blob is a fault,
and a pointer with an escape leads to any value. -/
theorem otherNames_transparent :
    (∃ property, PropertyDescriptor.compile (.ofDefinitions otherNames) {}
        ⟨"rows", .arrayOf (.arrayOf (.reference "#/definitions/list")), none⟩ false = .ok property ∧
      property.type = .collection (.collection (.collection .mixed))) ∧
    PropertyDescriptor.compile (.ofDefinitions otherNames) {}
        ⟨"blob", .reference "#/definitions/blob", none⟩ false = .error (.noDefault "blob" "object") ∧
    ∃ property, PropertyDescriptor.compile (.ofDefinitions otherNames) {}
        ⟨"any", .reference "#/definitions/a~1b", none⟩ false = .ok property ∧ property.type = .mixed := by
  have distinct : (otherNames.map (·.id)).Nodup := by decide
  have hlist : Reference.target "#/definitions/list" = otherNames[0].id := by decide
  have hblob : Reference.target "#/definitions/blob" = otherNames[3].id := by decide
  have hany : Reference.target "#/definitions/a~1b" = otherNames[2].id := by decide
  obtain ⟨hrows, -⟩ := aliases_transparent distinct (by decide) hlist {} 2 "rows" none false
  obtain ⟨hfault, -⟩ := aliases_transparent distinct (by decide) hblob {} 0 "blob" none false
  obtain ⟨-, hmixed⟩ := aliases_transparent distinct (by decide) hany {} 0 "any" none false
  exact ⟨⟨_, hrows "array" rfl, rfl⟩, hfault "object" rfl, _, hmixed rfl, rfl⟩

end SchemaCompiler
