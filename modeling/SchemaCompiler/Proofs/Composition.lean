import Mathlib.Data.List.Forall2
import Mathlib.Logic.Relation
import SchemaCompiler.Definition.OfSchema

/-!
# What a composition takes from its parts

A composition is a schema with a list of parts. Its definition takes its parent from the reference in
the first part, and its required names and properties from the second part, each only when the part is a
schema. From the composition itself it takes the kind, the title and the description. What else stands in
the composition or in its parts does not show: a `Rework` is a change of it, one rework leaves the
definition as it is (`ofSchema_of_rework`), and so does any number of them (`ofSchema_of_reworks`).

A schema without parts has no parent, and its required names and properties are its own. Wherever the
properties come from, there is one for each entry, in order, and nothing but the entry goes into it
(`Declares`). All of this together is `composition_takes_first_and_second`.

The kind is decided apart from this, by a function that looks at the properties of an untyped schema as
well. It does not make them show, since the parts already tell that an untyped composition is an object.
-/

namespace SchemaCompiler

namespace AllOf

/-- A definition has the required names and the properties that a schema declares. -/
structure Declares (body : Schema) (definition : Definition) : Prop where
  /-- The required names are those of the schema. -/
  required : definition.required = body.required.getD []
  /-- The names of the properties are the keys, in their order. -/
  names : definition.properties.map (·.name) = Entries.keys (body.properties.getD [])
  /-- Each property is made of its own entry. -/
  properties : List.Forall₂
    (fun entry spec => spec.name = entry.1 ∧ spec.type = .ofNode entry.2 ∧
      spec.description = entry.2.schema?.bind (·.description))
    (body.properties.getD []) definition.properties

/-- A change of a composition that its definition does not show. -/
inductive Rework : Schema → Schema → Prop where
  /-- The composition itself gets another reference, other required names, properties and elements. -/
  | own (schema : Schema) (parts : List Node) (reference : Option String)
      (required : Option (List String)) (properties : Option (List (String × Node)))
      (items : Option (Items Node)) (h : schema.allOf = some parts) :
      Rework schema { schema with reference, required, properties, items }
  /-- The first part is replaced by one with the same reference. -/
  | first (schema part other : Schema) (later : List Node)
      (h : schema.allOf = some (.schema part :: later)) (hreference : other.reference = part.reference) :
      Rework schema { schema with allOf := some (.schema other :: later) }
  /-- The second part is replaced by one with the same required names and properties. -/
  | second (schema part other : Schema) (first : Node) (later : List Node)
      (h : schema.allOf = some (first :: .schema part :: later))
      (hrequired : other.required = part.required) (hproperties : other.properties = part.properties) :
      Rework schema { schema with allOf := some (first :: .schema other :: later) }
  /-- The parts behind the second are replaced by any number of others. -/
  | later (schema : Schema) (first second : Node) (later others : List Node)
      (h : schema.allOf = some (first :: second :: later)) :
      Rework schema { schema with allOf := some (first :: second :: others) }

end AllOf

theorem Node.schema?_eq_some_iff {node : Node} {schema : Schema} :
    node.schema? = some schema ↔ node = .schema schema := by
  cases node <;> simp [Node.schema?]

namespace Definition

open AllOf

/-! ### Bodies -/

/-- The definition of a schema has what the schema declares whose properties count. -/
theorem declares_of_bodyOf (id : String) {schema body : Schema} (h : bodyOf schema = some body) :
    Declares body (ofSchema id schema) where
  required := by rw [ofSchema, h, Option.bind_some]
  names := by
    rw [ofSchema, h, Option.bind_some, List.map_map, Entries.keys]
    rfl
  properties := by
    rw [ofSchema, h, List.forall₂_map_right_iff]
    exact List.forall₂_same.mpr fun entry _ => ⟨rfl, rfl, rfl⟩

/-- Without a schema whose properties count there is nothing that a definition declares. -/
theorem declares_nothing_of_bodyOf (id : String) {schema : Schema} (h : bodyOf schema = none) :
    (ofSchema id schema).required = [] ∧ (ofSchema id schema).properties = [] := by
  rw [ofSchema, h]
  exact ⟨rfl, rfl⟩

theorem bodyOf_eq_some_iff {schema body : Schema} {parts : List Node} (h : schema.allOf = some parts) :
    bodyOf schema = some body ↔ parts[1]? = some (.schema body) := by
  simp only [bodyOf, h, Option.bind_eq_some_iff, Node.schema?_eq_some_iff, exists_eq_right]

theorem bodyOf_eq_none_iff {schema : Schema} {parts : List Node} (h : schema.allOf = some parts) :
    bodyOf schema = none ↔ ∀ body, parts[1]? ≠ some (.schema body) := by
  simp only [Option.eq_none_iff_forall_ne_some, ne_eq, bodyOf_eq_some_iff h]

/-! ### Parents -/

theorem parent_of_first (id : String) {schema first : Schema} {parts : List Node}
    (h : schema.allOf = some parts) (hfirst : parts[0]? = some (.schema first)) :
    (ofSchema id schema).parent = first.reference := by
  rw [ofSchema, parentOf, h, Option.bind_some, parentOfParts, List.head?_eq_getElem?, hfirst]
  rfl

theorem parent_of_no_first (id : String) {schema : Schema} {parts : List Node}
    (h : schema.allOf = some parts) (hnone : ∀ first, parts[0]? ≠ some (.schema first)) :
    (ofSchema id schema).parent = none := by
  rw [ofSchema, parentOf, h, Option.bind_some, parentOfParts, List.head?_eq_getElem?]
  cases hpart : parts[0]? with
  | none => rfl
  | some part =>
    cases part with
    | schema first => exact absurd hpart (hnone first)
    | loose value => rfl

/-! ### Reworks -/

/-- The kind of a composition is told by its type alone. -/
theorem kind_eq_of_type {schema : Schema} (other : Schema) {parts others : List Node}
    (h : schema.allOf = some parts) (hother : other.allOf = some others)
    (htype : other.type = schema.type) : Kind.ofSchema other = Kind.ofSchema schema := by
  simp only [Kind.ofSchema, htype, h, hother, Option.isSome_some, Bool.true_or, if_true]

/-- One rework leaves the definition as it is. -/
theorem ofSchema_of_rework (id : String) {schema other : Schema} (h : Rework schema other) :
    ofSchema id other = ofSchema id schema := by
  cases h with
  | own parts reference required properties items h =>
    have hkind := kind_eq_of_type { schema with reference, required, properties, items } h h rfl
    rw [ofSchema, hkind]
    simp only [ofSchema, parentOf, bodyOf, h]
  | first part other later h hreference =>
    have hkind := kind_eq_of_type { schema with allOf := some (.schema other :: later) } h rfl rfl
    simp [ofSchema, hkind, parentOf, parentOfParts, bodyOf, h, Node.schema?, hreference]
  | second part other first later h hrequired hproperties =>
    have hkind := kind_eq_of_type { schema with allOf := some (first :: .schema other :: later) }
      h rfl rfl
    simp [ofSchema, hkind, parentOf, parentOfParts, bodyOf, h, Node.schema?, hrequired, hproperties]
  | later first second later others h =>
    have hkind := kind_eq_of_type { schema with allOf := some (first :: second :: others) }
      h rfl rfl
    simp [ofSchema, hkind, parentOf, parentOfParts, bodyOf, h]

/-- Any number of reworks leaves the definition as it is. -/
theorem ofSchema_of_reworks (id : String) {schema other : Schema}
    (h : Relation.ReflTransGen Rework schema other) : ofSchema id other = ofSchema id schema := by
  induction h with
  | refl => rfl
  | tail _ hrework ih => exact (ofSchema_of_rework id hrework).trans ih

end Definition

open AllOf Definition

/-- **Compositions.** The definition of a composition has the reference of the first part as its parent
when that part is a schema, and otherwise none; it declares what the second part declares when that part
is a schema, and otherwise nothing; and it stays the same under any number of reworks, which change anything
else in the composition and its parts. The definition of a schema without parts has no parent and
declares what the schema itself declares. -/
theorem composition_takes_first_and_second (id : String) (schema : Schema) :
    (∀ parts, schema.allOf = some parts →
      (∀ first, parts[0]? = some (.schema first) → (ofSchema id schema).parent = first.reference) ∧
      ((∀ first, parts[0]? ≠ some (.schema first)) → (ofSchema id schema).parent = none) ∧
      (∀ second, parts[1]? = some (.schema second) → Declares second (ofSchema id schema)) ∧
      ((∀ second, parts[1]? ≠ some (.schema second)) →
        (ofSchema id schema).required = [] ∧ (ofSchema id schema).properties = []) ∧
      ∀ other, Relation.ReflTransGen Rework schema other → ofSchema id other = ofSchema id schema) ∧
    (schema.allOf = none →
      (ofSchema id schema).parent = none ∧ Declares schema (ofSchema id schema)) := by
  refine ⟨fun parts h => ⟨?_, ?_, ?_, ?_, ?_⟩, fun h => ⟨?_, ?_⟩⟩
  · exact fun first hfirst => parent_of_first id h hfirst
  · exact fun hnone => parent_of_no_first id h hnone
  · exact fun second hsecond => declares_of_bodyOf id ((bodyOf_eq_some_iff h).mpr hsecond)
  · exact fun hnone => declares_nothing_of_bodyOf id ((bodyOf_eq_none_iff h).mpr hnone)
  · exact fun other hreworks => ofSchema_of_reworks id hreworks
  · rw [ofSchema, parentOf, h, Option.bind_none]
  · exact declares_of_bodyOf id (by rw [bodyOf, h])

/-- What may bark. -/
def barking : Schema :=
  { required := some ["bark"]
    properties := some
      [("bark", .schema { type := some (.text "boolean") }), ("loud", .loose (.bool true))] }

/-- A terrier is a pet that may bark. The name that it declares beside its parts does not count. -/
def terrier : Schema :=
  { title := some "Terrier"
    properties := some [("name", .schema { type := some (.text "string") })]
    allOf := some [.schema { reference := some "#/definitions/pet" }, .schema barking] }

/-- The terrier with a reference, required names and elements of its own but without the name, with
required names in its first part, a composition in the second, and a third part. -/
def groomedTerrier : Schema :=
  { title := some "Terrier"
    reference := some "#/definitions/cat"
    required := some ["name"]
    items := some (.tuple [])
    allOf := some
      [.schema { reference := some "#/definitions/pet", required := some ["name"] },
        .schema { barking with allOf := some [.schema { reference := some "#/definitions/cat" }] },
        .loose .null] }

/-- It is still a pet that may bark. -/
theorem terrier_groomed :
    Relation.ReflTransGen Rework terrier groomedTerrier ∧
    ofSchema "terrier" groomedTerrier = ofSchema "terrier" terrier ∧
    (ofSchema "terrier" terrier).parent = some "#/definitions/pet" ∧
    (ofSchema "terrier" terrier).properties.map (·.name) = ["bark", "loud"] ∧
    (ofSchema "barking" barking).required =
      (ofSchema "terrier" terrier).required := by
  obtain ⟨hparent, -, hdeclares, -, hreworks⟩ :=
    (composition_takes_first_and_second "terrier" terrier).1 _ rfl
  obtain ⟨-, hbarking⟩ := (composition_takes_first_and_second "barking" barking).2 rfl
  have hgroomed : Relation.ReflTransGen Rework terrier groomedTerrier :=
    .head (.own terrier _ (some "#/definitions/cat") (some ["name"]) none (some (.tuple [])) rfl) <|
    .head (.first _ _ { reference := some "#/definitions/pet", required := some ["name"] } _ rfl rfl) <|
    .head (.second _ _
      { barking with allOf := some [.schema { reference := some "#/definitions/cat" }] } _ _
      rfl rfl rfl) <|
    .single (.later _ _ _ _ [.loose .null] rfl)
  have hterrier := hdeclares barking rfl
  exact ⟨hgroomed, hreworks _ hgroomed, hparent _ rfl, hterrier.names,
    hbarking.required.trans hterrier.required.symm⟩

end SchemaCompiler
