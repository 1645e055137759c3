import SchemaCompiler.Proofs.Compilation

/-!
# Which fault ends a run

The faults of a definition, told from the identifiers and kinds of all definitions and without the
table of types: first its parent, when that names no definition; then, property by property, the
reference in its type, when that names no definition, and the lack of a default. A run fails exactly
when some object has a fault, and its fault is the first one of the first such object
(`ofDefinitions_fails_with_first_fault`).

A property lacks a default when it is optional and its type is a primitive without a zero value,
whether the keyword of the primitive is declared or reached through a reference. The keywords
`array` and `mixed` are no primitives: they stand for a collection of anything and for any value.
-/

namespace SchemaCompiler

open Traversal

/-! ### The faults of a definition -/

/-- The primitive that a keyword names, if it names one. -/
def primitiveOf? (keyword : String) : Option String :=
  if keyword = "array" ∨ keyword = "mixed" then none else some keyword

/-- The primitive that definitions of a kind stand for, if they stand for one. -/
def Kind.primitive? : Kind → Option String
  | primitive keyword => primitiveOf? keyword
  | _ => none

/-- The primitive that a declared type stands for among definitions, if it stands for one. -/
def DeclaredType.primitive? (definitions : List Definition) : DeclaredType → Option String
  | primitive keyword => primitiveOf? keyword
  | reference text =>
    ((Definition.lastOf? definitions (Reference.target text)).map (·.kind)).bind Kind.primitive?
  | _ => none

/-- Whether a primitive has a zero value. -/
def hasZero (keyword : String) : Bool :=
  keyword ∈ ["string", "integer", "number", "boolean"]

namespace PropertySpec

/-- The faults of a property that comes from its having no default. -/
def defaultFaults (definitions : List Definition) (spec : PropertySpec) : List CompileFault :=
  ((spec.type.primitive? definitions).filter (!hasZero ·)).toList.map (.noDefault spec.name)

/-- The faults of a property, when `required` are the names of those that must be given. -/
def faults (definitions : List Definition) (required : List String) (spec : PropertySpec) :
    List CompileFault :=
  spec.type.reference?.toList.flatMap (Definition.referenceFaults definitions) ++
    if spec.name ∈ required then [] else defaultFaults definitions spec

end PropertySpec

/-- The faults of a definition among others, in order. -/
def Definition.faults (definitions : List Definition) (definition : Definition) :
    List CompileFault :=
  definition.parent.toList.flatMap (referenceFaults definitions) ++
    definition.properties.flatMap (PropertySpec.faults definitions definition.required)

/-! ### The fault of each step -/

theorem head?_toList_flatMap {α β : Type} (value : Option α) (f : α → List β) :
    (value.toList.flatMap f).head? = value.bind fun a => (f a).head? := by
  cases value <;> simp

theorem ofKeyword?_eq_none_iff {keyword : String} (h : keyword ≠ "array") :
    Default.ofKeyword? keyword = none ↔ hasZero keyword = false := by
  unfold Default.ofKeyword?
  split
  next => exact absurd rfl h
  next => simp [hasZero]
  next => simp [hasZero]
  next => simp [hasZero]
  next => simp [hasZero]
  next hstring hinteger hnumber hboolean =>
    simpa [hasZero] using ⟨hstring, hinteger, hnumber, hboolean⟩

/-- A keyword lacks a default exactly when it names a primitive without a zero value. -/
theorem fault?_ofType?_ofKeyword (keyword : String) :
    fault? (Default.ofType? (.ofKeyword keyword)) =
      (primitiveOf? keyword).filter (!hasZero ·) := by
  by_cases harray : keyword = "array"
  · subst harray
    rfl
  by_cases hmixed : keyword = "mixed"
  · subst hmixed
    rfl
  rw [FieldType.ofKeyword, if_neg harray, mixedKeyword, if_neg hmixed, primitiveOf?,
    if_neg (not_or.mpr ⟨harray, hmixed⟩), Default.ofType?]
  cases hzero : Default.ofKeyword? keyword with
  | none =>
    rw [Option.filter_some, (ofKeyword?_eq_none_iff harray).mp hzero]
    rfl
  | some value =>
    have hhas : hasZero keyword = true := by
      by_contra hnot
      rw [(ofKeyword?_eq_none_iff harray).mpr (by simpa using hnot)] at hzero
      cases hzero
    rw [Option.filter_some, hhas]
    rfl

/-- A type lacks a default exactly when it is declared as a primitive without a zero value. -/
theorem fault?_ofType?_of_ofDeclared {definitions : List Definition} {settings : Settings}
    {declared : DeclaredType} {type : FieldType}
    (h : FieldType.ofDeclared (.ofDefinitions definitions) settings declared = .ok type) :
    fault? (Default.ofType? type) = (declared.primitive? definitions).filter (!hasZero ·) := by
  cases declared with
  | primitive keyword =>
    cases h
    exact fault?_ofType?_ofKeyword keyword
  | reference text =>
    obtain ⟨resolved, hget, rfl⟩ := FieldType.ofDeclared_reference_eq_ok_iff.mp h
    rw [TypeMap.get?_ofDefinitions, Option.map_eq_some_iff] at hget
    obtain ⟨definition, hlast, rfl⟩ := hget
    rw [DeclaredType.primitive?, hlast, Option.map_some, Option.bind_some, Definition.resolved]
    cases definition.kind with
    | object => rfl
    | primitive keyword => exact fault?_ofType?_ofKeyword keyword
    | mixed => rfl
  | arrayOf element =>
    obtain ⟨inner, -, rfl⟩ := FieldType.ofDeclared_arrayOf_eq_ok_iff.mp h
    rfl
  | mixed =>
    cases h
    rfl
  | unknown =>
    cases h
    rfl

section Steps

variable (definitions : List Definition) (settings : Settings)

theorem fault?_defaultOf (name : String) (type : FieldType) (required : Bool) :
    fault? (PropertyDescriptor.defaultOf name type required) =
      if required then none else (fault? (Default.ofType? type)).map (.noDefault name) := by
  rw [PropertyDescriptor.defaultOf]
  cases required with
  | true => rfl
  | false => cases Default.ofType? type <;> rfl

/-- The fault of compiling a property is its first. -/
theorem fault?_compile_property (required : List String) (spec : PropertySpec) :
    fault? (PropertyDescriptor.compile (.ofDefinitions definitions) settings spec
      (required.contains spec.name)) = (spec.faults definitions required).head? := by
  have hreference : fault? (FieldType.ofDeclared (.ofDefinitions definitions) settings spec.type) =
      (spec.type.reference?.toList.flatMap (Definition.referenceFaults definitions)).head? := by
    rw [FieldType.fault?_ofDeclared, head?_toList_flatMap]
    simp only [TypeMap.fault?_resolve]
  rw [PropertyDescriptor.compile, PropertySpec.faults, List.head?_append, ← hreference]
  -- a default is only looked for once the type is known
  cases htype : FieldType.ofDeclared (.ofDefinitions definitions) settings spec.type with
  | error fault => rfl
  | ok type =>
    have hdefault : fault? (PropertyDescriptor.defaultOf spec.name type (required.contains spec.name))
        = (if spec.name ∈ required then [] else spec.defaultFaults definitions).head? := by
      rw [fault?_defaultOf, fault?_ofType?_of_ofDeclared htype, PropertySpec.defaultFaults]
      by_cases hreq : spec.name ∈ required
      · simp [hreq]
      · simp [hreq, Option.head?_toList]
    rw [fault?_ok, Option.none_or, ← hdefault]
    dsimp only
    cases PropertyDescriptor.defaultOf spec.name type (required.contains spec.name) <;> rfl

/-- The fault of compiling a definition is its first. -/
theorem fault?_compile_definition (definition : Definition) :
    fault? (Model.compile (.ofDefinitions definitions) settings definition) =
      (definition.faults definitions).head? := by
  rw [Model.fault?_compile, Model.fault?_parentOf, Definition.faults, List.head?_append,
    head?_toList_flatMap, List.head?_flatMap]
  simp only [TypeMap.fault?_resolve, Definition.isRequired, fault?_compile_property]

end Steps

/-! ### The fault of a run -/

/-- The fault of a run is the first of all those that its objects have, in order. -/
theorem fault?_run (settings : Settings) (definitions : List Definition) :
    fault? (Generation.ofDefinitions settings definitions) =
      ((definitions.filter (·.isObject)).flatMap (Definition.faults definitions)).head? := by
  rw [Generation.fault?_ofDefinitions, List.head?_flatMap]
  simp only [fault?_compile_definition]

/-- The first fault of the objects of a list is that of the first object that has any. -/
theorem head?_flatMap_objects_eq_some_iff (faults : Definition → List CompileFault)
    (definitions : List Definition) (fault : CompileFault) :
    ((definitions.filter (·.isObject)).flatMap faults).head? = some fault ↔
      ∃ earlier definition later, definitions = earlier ++ definition :: later ∧
        definition.isObject ∧ (∀ d ∈ earlier, d.isObject → faults d = []) ∧
        (faults definition).head? = some fault := by
  -- what is no object counts as having no faults, so that the split is one of the whole list
  have hobjects : (definitions.filter (·.isObject)).flatMap faults =
      definitions.flatMap fun d => if d.isObject then faults d else [] := by
    induction definitions with
    | nil => rfl
    | cons first rest ih => by_cases h : first.isObject <;> simp [h, ih]
  rw [hobjects, List.head?_flatMap, List.findSome?_eq_some_iff]
  constructor
  · rintro ⟨earlier, definition, later, hsplit, hfault, hnone⟩
    by_cases hobj : definition.isObject
    · rw [if_pos hobj] at hfault
      refine ⟨earlier, definition, later, hsplit, hobj, fun d hd hd' => ?_, hfault⟩
      simpa [hd'] using hnone d hd
    · rw [if_neg hobj] at hfault
      cases hfault
  · rintro ⟨earlier, definition, later, hsplit, hobj, hnone, hfault⟩
    refine ⟨earlier, definition, later, hsplit, by rw [if_pos hobj, hfault], fun d hd => ?_⟩
    by_cases hd' : d.isObject
    · rw [if_pos hd', hnone d hd hd', List.head?_nil]
    · rw [if_neg hd', List.head?_nil]

/-! ### What faults depend on -/

/-- Lists agree when they define the same identifiers as the same kinds of things, in order. -/
def Agree (definitions others : List Definition) : Prop :=
  others.map (fun d => (d.id, d.kind)) = definitions.map (fun d => (d.id, d.kind))

section Agreement

variable {definitions others : List Definition} (h : Agree definitions others)

include h

theorem referenceFaults_congr :
    Definition.referenceFaults others = Definition.referenceFaults definitions := by
  have hids : others.map (·.id) = definitions.map (·.id) := by
    simpa [Agree, Function.comp_def] using congrArg (List.map Prod.fst) h
  funext reference
  have hmem : (∃ d ∈ others, d.id = Reference.target reference) ↔
      ∃ d ∈ definitions, d.id = Reference.target reference := by
    rw [← List.mem_map, ← List.mem_map, hids]
  simp only [Definition.referenceFaults, hmem]

theorem kind_lastOf?_congr (id : String) :
    (Definition.lastOf? others id).map (·.kind) =
      (Definition.lastOf? definitions id).map (·.kind) := by
  rw [Definition.lastOf?, Definition.lastOf?, ← Table.lookup_map_keyed, ← Table.lookup_map_keyed,
    List.map_reverse, List.map_reverse, h]

/-- The faults of a definition depend on the identifiers and kinds of the others alone. -/
theorem faults_congr : Definition.faults others = Definition.faults definitions := by
  have hprimitive (type : DeclaredType) : type.primitive? others = type.primitive? definitions := by
    cases type <;> simp only [DeclaredType.primitive?, kind_lastOf?_congr h]
  have hspecs : PropertySpec.faults others = PropertySpec.faults definitions := by
    funext required spec
    simp only [PropertySpec.faults, PropertySpec.defaultFaults, hprimitive, referenceFaults_congr h]
  funext definition
  simp only [Definition.faults, referenceFaults_congr h, hspecs]

end Agreement

/-- A parent that names a definition is no fault, whatever it stands for. -/
theorem faults_of_parent_defined {definitions : List Definition} {definition : Definition}
    {reference : String} (hparent : definition.parent = some reference)
    (hdefined : ∃ d ∈ definitions, d.id = Reference.target reference) :
    definition.faults definitions = { definition with parent := none }.faults definitions := by
  rw [Definition.faults, Definition.faults, hparent, Option.toList_some, List.flatMap_singleton,
    Definition.referenceFaults, if_pos hdefined]
  rfl

/-- **Exact failure of a run.** A run fails exactly when some object has a fault, also one whose
model would be replaced later, and its fault is the first one of the first such object. A parent that
names a definition of any kind is no fault, and what definitions of other kinds hold makes no
difference. -/
theorem ofDefinitions_fails_with_first_fault (settings : Settings) (definitions : List Definition) :
    ((∃ fault, Generation.ofDefinitions settings definitions = .error fault) ↔
      ∃ definition ∈ definitions, definition.isObject ∧ definition.faults definitions ≠ []) ∧
    (∀ fault, Generation.ofDefinitions settings definitions = .error fault ↔
      ∃ earlier definition later, definitions = earlier ++ definition :: later ∧
        definition.isObject ∧ (∀ d ∈ earlier, d.isObject → d.faults definitions = []) ∧
        (definition.faults definitions).head? = some fault) ∧
    (∀ (definition : Definition) (reference : String), definition.parent = some reference →
      (∃ d ∈ definitions, d.id = Reference.target reference) →
      definition.faults definitions = { definition with parent := none }.faults definitions) ∧
    ∀ others, Agree definitions others →
      others.filter (·.isObject) = definitions.filter (·.isObject) →
      ∀ fault, Generation.ofDefinitions settings others = .error fault ↔
        Generation.ofDefinitions settings definitions = .error fault := by
  refine ⟨?_, fun fault => ?_, fun _ _ => faults_of_parent_defined,
    fun others hagree hobjects fault => ?_⟩
  · have hfails : (∃ fault, Generation.ofDefinitions settings definitions = .error fault) ↔
        (definitions.filter (·.isObject)).flatMap (Definition.faults definitions) ≠ [] := by
      simp only [← fault?_eq_some_iff, fault?_run]
      rw [← Option.isSome_iff_exists, List.isSome_head?]
    rw [hfails, ne_eq, List.flatMap_eq_nil_iff]
    simp
  · rw [← fault?_eq_some_iff, fault?_run, head?_flatMap_objects_eq_some_iff]
  · rw [← fault?_eq_some_iff, ← fault?_eq_some_iff, fault?_run, fault?_run, hobjects,
      faults_congr hagree]

/-- A primitive with a parent that is nowhere; then objects without a fault, with two, and with one. -/
def faulty : List Definition :=
  [{ id := "scan", kind := .primitive "file", parent := some "#/nowhere" },
   { id := "tag", kind := .object, parent := some "#/definitions/scan", required := ["image"],
     properties := [⟨"image", .reference "#/definitions/scan", none⟩, ⟨"any", .primitive "mixed", none⟩] },
   { id := "pet", kind := .object, title := some "Tag",
     properties := [⟨"image", .reference "#/definitions/scan", none⟩,
       ⟨"owner", .arrayOf (.reference "#/definitions/owner"), none⟩] },
   { id := "tag", kind := .object, parent := some "#/definitions/shop" }]

/-- The run ends with the first of the two. -/
theorem faulty_run : Generation.ofDefinitions {} faulty = .error (.noDefault "image" "file") := by
  rw [(ofDefinitions_fails_with_first_fault {} faulty).2.1]
  exact ⟨faulty.take 2, faulty[2], faulty.drop 3, rfl, rfl, by decide, by decide⟩

end SchemaCompiler
