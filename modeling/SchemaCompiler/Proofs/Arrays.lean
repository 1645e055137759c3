import Mathlib.Logic.Function.Iterate
import SchemaCompiler.Proofs.Compilation

/-!
# Arrays of arrays

A node may be wrapped into arrays any number of times (`Wraps`). Three recursions meet such a node: it is
read as a declared type, its references are followed, and the type that comes out is documented. Each of
them goes through the arrays one by one and leaves what is inside to itself: the declared type is that of
the inner node under as many arrays (`ofNode_of_wraps`), the compiled type is that of the inner node under
as many collections, or the same fault (`ofDeclared_arrays`), and the documented type is the inner one with
as many brackets behind it (`docType_collections`).

Only the default does not commute: it is that of the inner type when there is no array around it, and the
empty array as soon as there is one. So a type without a default may be optional inside of an array
(`arrays_compile_to_collections`).
-/

namespace SchemaCompiler

open Traversal

/-- A node is an inner one wrapped into arrays. What the arrays say beside their elements does not
matter. -/
inductive Node.Wraps (inner : Node) : Nat → Node → Prop where
  /-- The inner node itself. -/
  | bare : Wraps inner 0 inner
  /-- One more array around. -/
  | array {n : Nat} {node : Node} {schema : Schema} (h : Wraps inner n node)
      (hreference : schema.reference = none) (htype : schema.type = some (.text "array"))
      (hitems : schema.items = some (.single node)) : Wraps inner (n + 1) (.schema schema)

/-! ### Types -/

/-- The declared type of a wrapped node is that of the inner node under as many arrays. -/
theorem DeclaredType.ofNode_of_wraps {inner outer : Node} {n : Nat} (h : inner.Wraps n outer) :
    ofNode outer = arrayOf^[n] (ofNode inner) := by
  induction h with
  | bare => rfl
  | @array n node schema _ hreference htype hitems ih =>
    obtain ⟨_, _, _, _, _, _, _, _⟩ := schema
    obtain rfl : _ = none := hreference
    obtain rfl : _ = some (Json.text "array") := htype
    obtain rfl : _ = some (Items.single node) := hitems
    rw [Function.iterate_succ_apply', ← ih, ofNode, if_pos rfl]

namespace FieldType

/-- Collections are documented by as many brackets behind what they hold. -/
theorem docType_collections (n : Nat) (type : FieldType) :
    (collection^[n] type).docType = type.docType ++ String.join (List.replicate n "[]") := by
  induction n generalizing type with
  | zero => simp
  | succ n ih =>
    rw [Function.iterate_succ_apply, ih, docType, List.replicate_succ, String.join_cons,
      String.append_assoc]

variable (types : TypeMap) (settings : Settings)

/-- Arrays of a declared type compile to as many collections of what it compiles to, or have its fault. -/
theorem ofDeclared_arrays (n : Nat) (declared : DeclaredType) :
    ofDeclared types settings (DeclaredType.arrayOf^[n] declared) =
      (ofDeclared types settings declared).map collection^[n] := by
  induction n generalizing declared with
  | zero =>
    change ofDeclared types settings declared = _
    cases ofDeclared types settings declared <;> rfl
  | succ n ih =>
    rw [Function.iterate_succ_apply, ih, ofDeclared]
    cases ofDeclared types settings declared <;> rfl

variable {types settings} in
/-- A declared type has no fault but a reference that names nothing. -/
theorem eq_unresolvedReference_of_ofDeclared {declared : DeclaredType} {fault : CompileFault}
    (h : ofDeclared types settings declared = .error fault) :
    ∃ reference, fault = .unresolvedReference reference (Reference.target reference) := by
  rw [← fault?_eq_some_iff, fault?_ofDeclared, Option.bind_eq_some_iff] at h
  obtain ⟨reference, -, hfault⟩ := h
  rw [TypeMap.resolve] at hfault
  cases hget : types.get? (Reference.target reference) with
  | some resolved => simp [hget] at hfault
  | none =>
    simp only [hget, fault?_error, Option.some.injEq] at hfault
    exact ⟨reference, hfault.symm⟩

end FieldType

/-! ### Properties -/

namespace PropertyDescriptor

/-- A property is a collection that starts empty and takes its elements one by one. -/
structure Gathers (property : PropertyDescriptor) (element : FieldType) : Prop where
  /-- The type is a collection of the elements. -/
  type : property.type = .collection element
  /-- The collection starts empty. -/
  default : property.default = some .emptyArray
  /-- The adder takes an element. -/
  adder : ∃ adder, property.adder = some adder ∧ adder.docType = element.docType ∧
    adder.hint = element.hint

variable {types : TypeMap} {settings : Settings} {spec : PropertySpec}

/-- An optional property whose type is a collection is compiled, whatever it is a collection of. -/
theorem exists_gathers_of_collection {element : FieldType}
    (h : FieldType.ofDeclared types settings spec.type = .ok (.collection element)) :
    ∃ property, compile types settings spec false = .ok property ∧ property.Gathers element := by
  refine ⟨ofType spec false (.collection element) (some .emptyArray), ?_, rfl, rfl, _, rfl, rfl, rfl⟩
  rw [compile_eq_ok_iff]
  exact ⟨_, _, h, rfl, rfl⟩

/-- A fault in the type of a property is the fault of the property. -/
theorem compile_of_type_fault {fault : CompileFault} (required : Bool)
    (h : FieldType.ofDeclared types settings spec.type = .error fault) :
    compile types settings spec required = .error fault := by
  rw [compile, h]

end PropertyDescriptor

/-- **Arrays.** A node wrapped into arrays, whatever else these say, compiles to as many collections of what
the node itself compiles to, or has exactly its fault, and it is documented like the node with as many
brackets behind. With at least one array around it, an optional property of this type never lacks a
default: unless the node has a fault, it starts empty, and its adder takes one collection less. -/
theorem arrays_compile_to_collections (types : TypeMap) (settings : Settings) {inner outer : Node}
    {n : Nat} (h : inner.Wraps n outer) :
    FieldType.ofDeclared types settings (.ofNode outer) =
      (FieldType.ofDeclared types settings (.ofNode inner)).map FieldType.collection^[n] ∧
    (FieldType.ofDeclared types settings (.ofNode outer)).map FieldType.docType =
      (FieldType.ofDeclared types settings (.ofNode inner)).map (fun type =>
        type.docType ++ String.join (List.replicate n "[]")) ∧
    ∀ k, n = k + 1 → ∀ name description,
      (∀ type, FieldType.ofDeclared types settings (.ofNode inner) = .ok type →
        ∃ property, PropertyDescriptor.compile types settings ⟨name, .ofNode outer, description⟩
          false = .ok property ∧ property.Gathers (FieldType.collection^[k] type)) ∧
      (∀ fault, FieldType.ofDeclared types settings (.ofNode inner) = .error fault →
        PropertyDescriptor.compile types settings ⟨name, .ofNode outer, description⟩ false =
          .error fault) ∧
      ∀ property keyword, PropertyDescriptor.compile types settings ⟨name, .ofNode outer, description⟩
        false ≠ .error (.noDefault property keyword) := by
  have htype : FieldType.ofDeclared types settings (.ofNode outer) =
      (FieldType.ofDeclared types settings (.ofNode inner)).map FieldType.collection^[n] := by
    rw [DeclaredType.ofNode_of_wraps h, FieldType.ofDeclared_arrays]
  refine ⟨htype, ?_, ?_⟩
  · rw [htype]
    cases FieldType.ofDeclared types settings (.ofNode inner) with
    | error fault => rfl
    | ok type => exact congrArg Except.ok (FieldType.docType_collections n type)
  · rintro k rfl name description
    have hok : ∀ type, FieldType.ofDeclared types settings (.ofNode inner) = .ok type →
        ∃ property, PropertyDescriptor.compile types settings ⟨name, .ofNode outer, description⟩
          false = .ok property ∧ property.Gathers (FieldType.collection^[k] type) := by
      intro type hinner
      refine PropertyDescriptor.exists_gathers_of_collection ?_
      rw [htype, hinner, Function.iterate_succ']
      rfl
    have hfault : ∀ fault, FieldType.ofDeclared types settings (.ofNode inner) = .error fault →
        PropertyDescriptor.compile types settings ⟨name, .ofNode outer, description⟩ false =
          .error fault := by
      intro fault hinner
      refine PropertyDescriptor.compile_of_type_fault false ?_
      rw [htype, hinner]
      rfl
    refine ⟨hok, hfault, fun property keyword hlacks => ?_⟩
    cases hinner : FieldType.ofDeclared types settings (.ofNode inner) with
    | ok type =>
      obtain ⟨compiled, hcompiled, -⟩ := hok type hinner
      rw [hcompiled] at hlacks
      cases hlacks
    | error fault =>
      obtain ⟨reference, rfl⟩ := FieldType.eq_unresolvedReference_of_ofDeclared hinner
      rw [hfault _ hinner] at hlacks
      cases hlacks

/-- A node of type `file`, which has no default. -/
def scan : Node :=
  .schema { type := some (.text "file") }

/-- Rows of lists of such nodes, the rows with a description and required names. -/
def scans : Node :=
  .schema
    { type := some (.text "array")
      description := some "by day"
      required := some ["day"]
      items := some (.single (.schema
        { type := some (.text "array"), items := some (.single scan) })) }

/-- An optional scan is a fault and optional rows of scans are none. -/
theorem scans_compiled :
    PropertyDescriptor.compile (.ofDefinitions []) {} ⟨"scans", .ofNode scan, none⟩ false =
      .error (.noDefault "scans" "file") ∧
    FieldType.ofDeclared (.ofDefinitions []) {} (.ofNode scans) =
      .ok (.collection (.collection (.primitive "file"))) ∧
    ∃ property, PropertyDescriptor.compile (.ofDefinitions []) {} ⟨"scans", .ofNode scans, none⟩ false =
      .ok property ∧ property.Gathers (.collection (.primitive "file")) := by
  have hwraps : scan.Wraps 2 scans := .array (.array .bare rfl rfl rfl) rfl rfl rfl
  obtain ⟨htype, -, hproperty⟩ := arrays_compile_to_collections (.ofDefinitions []) {} hwraps
  obtain ⟨hcompiled, -, -⟩ := hproperty 1 rfl "scans" none
  exact ⟨rfl, htype, hcompiled (.primitive "file") rfl⟩

end SchemaCompiler
