import SchemaCompiler.Proofs.Compilation

/-!
# What a property shows of its type

A compiled property says the same thing several times: in its type, in the documented types of the
property and of its methods, in its default, in the models that its methods ask for, and in whether
it has an adder. All of these follow from the type alone and fit together (`Coherent`), whether the
type was declared in place, reached through a reference, or nested in arrays
(`properties_coherent`).

What carries the proof is that the keywords `array` and `mixed` never get into a field type as
primitives (`keywords_of_ofDeclared`). Among the keywords that are left, those with a default are
just the four that have a zero value (`suits_of_ofType?`).
-/

namespace SchemaCompiler

/-- The keywords of the primitives at all depths of a field type. -/
def FieldType.keywords : FieldType → List String
  | primitive keyword => [keyword]
  | collection element => element.keywords
  | _ => []

namespace Default

/-- The primitives that have a zero value, with that value. -/
def zeroValues : List (String × Default) :=
  [("string", emptyText), ("integer", integer 0), ("number", float 0.0), ("boolean", bool false)]

/-- What an optional property of a type starts with: nothing, an empty array or a zero value, and
each of them for just one kind of type. -/
structure Suits (type : FieldType) (default : Option Default) : Prop where
  /-- Collections, and nothing else, start empty. -/
  empty_iff : default = some emptyArray ↔ ∃ element, type = .collection element
  /-- A zero value goes with its keyword only. -/
  zero_iff : ∀ keyword zero, (keyword, zero) ∈ zeroValues →
    (default = some zero ↔ type = .primitive keyword)
  /-- Models, any values and values of which nothing is known start with nothing. -/
  none_iff : default = none ↔ (∃ ref, type = .model ref) ∨ type = .mixed ∨ type = .unknown
  /-- There are no other types. -/
  exhaustive : (∃ element, type = .collection element) ∨
    (∃ keyword zero, (keyword, zero) ∈ zeroValues ∧ type = .primitive keyword) ∨
    (∃ ref, type = .model ref) ∨ type = .mixed ∨ type = .unknown

end Default

namespace PropertyDescriptor

/-- What a property shows fits its type and what it was compiled from, when `required` are the names
of the properties that must be given. -/
structure Coherent (required : List String) (spec : PropertySpec) (property : PropertyDescriptor) :
    Prop where
  /-- The property has the name of what it is compiled from. -/
  name : property.name = spec.name
  /-- At no depth of the type is there a keyword that does not name a primitive. -/
  keywords : ∀ keyword ∈ property.type.keywords, keyword ≠ "array" ∧ keyword ≠ "mixed"
  /-- The documented type is that of the type. -/
  docType : property.docType = property.type.docType
  /-- The setter documents the same type. -/
  setter_docType : property.setter.docType = property.type.docType
  /-- The property must be given exactly when its name is listed. -/
  required_iff : property.required = true ↔ spec.name ∈ required
  /-- What must be given has no default. -/
  default_of_required : property.required = true → property.default = none
  /-- What need not be given has the default of its type. -/
  default_of_optional : property.required = false → Default.Suits property.type property.default
  /-- The setter asks for a model exactly when the type is that model. -/
  setter_hint_iff : ∀ ref, property.setter.hint = some ref ↔ property.type = .model ref
  /-- There is an adder exactly for collections. -/
  adder_iff : (∃ adder, property.adder = some adder) ↔ ∃ element, property.type = .collection element
  /-- The adder documents the type of the elements. -/
  adder_docType : ∀ adder, property.adder = some adder → property.docType = adder.docType ++ "[]"
  /-- The adder asks for a model exactly when the elements belong to it. -/
  adder_hint_iff : ∀ adder, property.adder = some adder →
    ∀ ref, adder.hint = some ref ↔ property.type = .collection (.model ref)

end PropertyDescriptor

/-! ### Types -/

namespace FieldType

theorem hint_eq_some_iff {type : FieldType} {ref : TypeRef} : type.hint = some ref ↔ type = model ref := by
  cases type <;> simp [hint]

theorem element_eq_some_iff {type element : FieldType} :
    type.element = some element ↔ type = collection element := by
  cases type <;> simp [FieldType.element]

/-- The keywords that name no primitive are replaced by what they stand for. -/
theorem keywords_ofKeyword (keyword : String) :
    ∀ other ∈ (ofKeyword keyword).keywords, other ≠ "array" ∧ other ≠ "mixed" := by
  rw [ofKeyword]
  split_ifs with harray hmixed
  · simp [keywords]
  · simp [keywords]
  · intro other hother
    obtain rfl : other = keyword := by simpa [keywords] using hother
    exact ⟨harray, hmixed⟩

theorem keywords_ofResolved (settings : Settings) (resolved : Resolved) :
    ∀ keyword ∈ (ofResolved settings resolved).keywords, keyword ≠ "array" ∧ keyword ≠ "mixed" := by
  cases resolved with
  | primitive keyword => exact keywords_ofKeyword keyword
  | model name => simp [ofResolved, keywords]

/-- At no depth of a compiled type is there a keyword that names no primitive, be it declared or reached
through a reference. -/
theorem keywords_of_ofDeclared {types : TypeMap} {settings : Settings} {declared : DeclaredType}
    {type : FieldType} (h : ofDeclared types settings declared = .ok type) :
    ∀ keyword ∈ type.keywords, keyword ≠ "array" ∧ keyword ≠ "mixed" := by
  induction declared generalizing type with
  | primitive keyword =>
    cases h
    exact keywords_ofKeyword keyword
  | reference text =>
    obtain ⟨resolved, -, rfl⟩ := ofDeclared_reference_eq_ok_iff.mp h
    exact keywords_ofResolved settings resolved
  | arrayOf element ih =>
    obtain ⟨inner, hinner, rfl⟩ := ofDeclared_arrayOf_eq_ok_iff.mp h
    intro keyword hkeyword
    exact ih hinner keyword hkeyword
  | mixed =>
    cases h
    simp [keywords]
  | unknown =>
    cases h
    simp [keywords]

end FieldType

/-! ### Defaults -/

namespace Default

theorem ne_emptyArray_of_mem_zeroValues {keyword : String} {zero : Default}
    (h : (keyword, zero) ∈ zeroValues) : zero ≠ emptyArray := by
  rintro rfl
  simp [zeroValues] at h

theorem suits_collection (element : FieldType) : Suits (.collection element) (some emptyArray) where
  empty_iff := by simp
  zero_iff := fun keyword zero h => by simp [(ne_emptyArray_of_mem_zeroValues h).symm]
  none_iff := by simp
  exhaustive := .inl ⟨element, rfl⟩

/-- Types without a default. -/
theorem suits_none {type : FieldType}
    (h : (∃ ref, type = .model ref) ∨ type = .mixed ∨ type = .unknown) : Suits type none where
  empty_iff := by
    obtain ⟨ref, rfl⟩ | rfl | rfl := h <;> simp
  zero_iff := by
    obtain ⟨ref, rfl⟩ | rfl | rfl := h <;> simp
  none_iff := by simp [h]
  exhaustive := .inr (.inr h)

/-- Apart from the keyword of arrays, the keywords with a default are those with a zero value. -/
theorem mem_zeroValues_of_ofKeyword? {keyword : String} (harray : keyword ≠ "array") {zero : Default}
    (h : ofKeyword? keyword = some zero) : (keyword, zero) ∈ zeroValues := by
  unfold ofKeyword? at h
  split at h
  · exact absurd rfl harray
  all_goals simp_all [zeroValues]

/-- Every zero value belongs to one keyword. -/
theorem zero_eq_iff {a b : String × Default} (ha : a ∈ zeroValues) (hb : b ∈ zeroValues) :
    a.2 = b.2 ↔ a.1 = b.1 := by
  simp only [zeroValues, List.mem_cons, List.not_mem_nil, or_false] at ha hb
  obtain rfl | rfl | rfl | rfl := ha <;> obtain rfl | rfl | rfl | rfl := hb <;> simp

theorem suits_zero {keyword : String} {zero : Default} (h : (keyword, zero) ∈ zeroValues) :
    Suits (.primitive keyword) (some zero) where
  empty_iff := by simp [ne_emptyArray_of_mem_zeroValues h]
  zero_iff := fun other value hother => by
    rw [Option.some.injEq, FieldType.primitive.injEq]
    exact zero_eq_iff h hother
  none_iff := by simp
  exhaustive := .inr (.inl ⟨keyword, zero, h, rfl⟩)

/-- The default that a compiled type has suits it. -/
theorem suits_of_ofType? {type : FieldType} {default : Option Default}
    (harray : ∀ keyword ∈ type.keywords, keyword ≠ "array") (h : ofType? type = .ok default) :
    Suits type default := by
  cases type with
  | collection element =>
    cases h
    exact suits_collection element
  | primitive keyword =>
    obtain ⟨zero, hzero, rfl⟩ := ofType?_primitive_eq_ok_iff.mp h
    exact suits_zero (mem_zeroValues_of_ofKeyword? (harray keyword (by simp [FieldType.keywords])) hzero)
  | model ref =>
    cases h
    exact suits_none (.inl ⟨ref, rfl⟩)
  | mixed =>
    cases h
    exact suits_none (.inr (.inl rfl))
  | unknown =>
    cases h
    exact suits_none (.inr (.inr rfl))

end Default

/-! ### Properties -/

namespace PropertyDescriptor

variable {types : TypeMap} {settings : Settings} {spec : PropertySpec} {required : List String}

theorem adderOf_eq_some_iff {name : String} {type : FieldType} {adder : Method} :
    adderOf name type = some adder ↔ ∃ element, type = .collection element ∧
      { name := Name.adder (Name.singular (Name.accessorStem name))
        parameter := Name.singular name
        docType := element.docType
        hint := element.hint } = adder := by
  simp only [adderOf, Option.map_eq_some_iff, FieldType.element_eq_some_iff]

/-- A compiled property is coherent. -/
theorem coherent_of_compile {property : PropertyDescriptor}
    (h : compile types settings spec (required.contains spec.name) = .ok property) :
    Coherent required spec property := by
  obtain ⟨type, default, htype, hdefault, rfl⟩ := compile_eq_ok_iff.mp h
  have hkeywords := FieldType.keywords_of_ofDeclared htype
  refine
    { name := rfl
      keywords := hkeywords
      docType := rfl
      setter_docType := rfl
      required_iff := by simp [ofType]
      default_of_required := fun hrequired => ?_
      default_of_optional := fun hoptional => ?_
      setter_hint_iff := fun ref => FieldType.hint_eq_some_iff
      adder_iff := ?_
      adder_docType := fun adder hadder => ?_
      adder_hint_iff := fun adder hadder ref => ?_ }
  · change required.contains spec.name = true at hrequired
    obtain ⟨-, hnone⟩ | ⟨hoptional, -⟩ := defaultOf_eq_ok_iff.mp hdefault
    · exact hnone
    · rw [hrequired] at hoptional
      cases hoptional
  · change required.contains spec.name = false at hoptional
    obtain ⟨hrequired, -⟩ | ⟨-, hof⟩ := defaultOf_eq_ok_iff.mp hdefault
    · rw [hoptional] at hrequired
      cases hrequired
    · exact Default.suits_of_ofType? (fun keyword hkeyword => (hkeywords keyword hkeyword).1) hof
  · change (∃ adder, adderOf spec.name type = some adder) ↔ ∃ element, type = .collection element
    simp [adderOf_eq_some_iff]
  · obtain ⟨element, rfl, rfl⟩ := adderOf_eq_some_iff.mp hadder
    rfl
  · obtain ⟨element, rfl, rfl⟩ := adderOf_eq_some_iff.mp hadder
    change element.hint = some ref ↔ FieldType.collection element = .collection (.model ref)
    rw [FieldType.hint_eq_some_iff, FieldType.collection.injEq]

end PropertyDescriptor

/-- **Coherence.** Every model of a run is that of an object definition, and its properties are those of
the definition, in order and each of them coherent. -/
theorem properties_coherent {settings : Settings} {definitions : List Definition}
    {generation : Generation} (h : Generation.ofDefinitions settings definitions = .ok generation)
    {name : String} {model : Model} (hget : generation.models.get? name = some model) :
    (∃ definition ∈ definitions, definition.isObject ∧
      Model.compile generation.types settings definition = .ok model) ∧
    ∀ definition, Model.compile generation.types settings definition = .ok model →
      List.Forall₂ (PropertyDescriptor.Coherent definition.required) definition.properties
        model.properties := by
  constructor
  · exact Generation.exists_compile_of_mem_values h ((Table.mem_values_iff _ model).mpr ⟨name, hget⟩)
  · intro definition hm
    obtain ⟨parent, properties, -, hprops, rfl⟩ := Model.compile_eq_ok_iff.mp hm
    rw [PropertyDescriptor.compileAll_eq_mapM, Traversal.mapM_eq_ok_iff] at hprops
    exact hprops.imp fun spec property => PropertyDescriptor.coherent_of_compile

/-- A kit that names its types in every way: by keywords that are no primitives, through references to
them, and below arrays. -/
def kit : Definition where
  id := "kit"
  kind := .object
  required := ["scan", "grid"]
  properties :=
    [⟨"tags", .reference "#/definitions/tags", none⟩, ⟨"any", .primitive "mixed", none⟩,
      ⟨"weight", .reference "#/definitions/weight", none⟩, ⟨"scan", .primitive "file", none⟩,
      ⟨"lists", .arrayOf (.primitive "array"), none⟩, ⟨"self", .reference "kit", none⟩,
      ⟨"grid", .arrayOf (.arrayOf (.reference "#/definitions/kit")), none⟩]

/-- The kit and what it refers to. -/
def kits : List Definition :=
  [kit, { id := "tags", kind := .primitive "array" }, { id := "weight", kind := .primitive "number" }]

/-- The kit compiles to coherent properties with these documented types. -/
theorem kit_coherent : ∃ generation model, Generation.ofDefinitions {} kits = .ok generation ∧
    generation.models.get? "Kit" = some model ∧
    List.Forall₂ (PropertyDescriptor.Coherent kit.required) kit.properties model.properties ∧
    model.properties.map (·.docType) =
      ["mixed[]", "mixed", "float", "file", "mixed[][]", "Kit", "Kit[][]"] := by
  obtain ⟨generation, model, h, hget, hm, hdocs⟩ : ∃ generation model,
      Generation.ofDefinitions {} kits = .ok generation ∧
      generation.models.get? "Kit" = some model ∧
      Model.compile generation.types {} kit = .ok model ∧
      model.properties.map (·.docType) =
        ["mixed[]", "mixed", "float", "file", "mixed[][]", "Kit", "Kit[][]"] :=
    ⟨_, _, rfl, rfl, rfl, by decide +kernel⟩
  exact ⟨generation, model, h, hget, (properties_coherent h hget).2 kit hm, hdocs⟩

end SchemaCompiler
