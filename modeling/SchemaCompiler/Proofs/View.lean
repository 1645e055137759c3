import SchemaCompiler.Definition.OfSchema
import SchemaCompiler.Proofs.Document

/-!
# What definitions show of schemas

A definition does not show all of its schema: of a nested node it shows the declared type and four
fields, and of a node that is no schema nothing at all. This is the view of the node, and a schema has a
view in which every nested node is replaced by its own. Schemas with the same view give the same
definition (`ofSchema_congr`), so whatever keeps the view of a schema keeps what is made of it.
-/

namespace SchemaCompiler

/-! ### Views -/

/-- What a definition shows of a nested node. -/
structure NodeView where
  /-- The type that it declares. -/
  type : DeclaredType
  /-- The reference that it makes. -/
  reference : Option String
  /-- What it says about itself. -/
  description : Option String
  /-- The names that it requires. -/
  required : Option (List String)
  /-- The properties that it declares. -/
  properties : Option (List PropertySpec)

/-- The properties that the nodes of a schema declare. -/
def Fields.specs? (schema : Schema) : Option (List PropertySpec) :=
  schema.properties.map fun entries => entries.map fun entry => .ofNode entry.1 entry.2

/-- The view of a node. -/
def Node.view (node : Node) : NodeView where
  type := .ofNode node
  reference := node.schema?.bind (·.reference)
  description := node.schema?.bind (·.description)
  required := node.schema?.bind (·.required)
  properties := node.schema?.bind (·.specs?)

/-- The elements of an array with other nodes. -/
def Items.map {α β : Type} (f : α → β) : Items α → Items β
  | tuple nodes => tuple (nodes.map f)
  | single node => single (f node)

/-- The fields of a schema with other nodes. -/
def Fields.map {α β : Type} (f : α → β) (fields : Fields α) : Fields β where
  reference := fields.reference
  type := fields.type
  title := fields.title
  description := fields.description
  required := fields.required
  properties := fields.properties.map fun entries => entries.map fun entry => (entry.1, f entry.2)
  items := fields.items.map (Items.map f)
  allOf := fields.allOf.map (List.map f)

/-- The view of a schema. -/
def Fields.view (schema : Schema) : Fields NodeView :=
  Fields.map Node.view schema

theorem Fields.view_put (fields given : Schema) (key : Key) :
    (fields.put key given).view = fields.view.put key given.view := by
  cases key <;> rfl

theorem PropertySpec.ofNode_eq_of_view (name : String) (node : Node) :
    PropertySpec.ofNode name node = ⟨name, node.view.type, node.view.description⟩ := rfl

theorem Fields.specs?_eq_of_view (schema : Schema) : schema.specs? =
    schema.view.properties.map fun entries =>
      entries.map fun entry => ⟨entry.1, entry.2.type, entry.2.description⟩ := by
  simp [specs?, view, Fields.map, Function.comp_def, PropertySpec.ofNode_eq_of_view]

/-- The declared type of the elements of an array. -/
def DeclaredType.ofElements : Option (Items NodeView) → DeclaredType
  | some (.single node) => node.type
  | some (.tuple _) | none => mixed

/-- The type that a schema declares, told from its view. -/
theorem DeclaredType.ofNode_schema (schema : Schema) : ofNode (.schema schema) =
    match schema.view.reference, schema.view.type with
    | some text, _ => reference text
    | none, some (.text keyword) =>
      if keyword = "array" then arrayOf (ofElements schema.view.items) else primitive keyword
    | none, some (.list _) => mixed
    | none, _ => unknown := by
  obtain ⟨reference, type, _, _, _, _, items, _⟩ := schema
  cases reference with
  | some text => simp only [ofNode, Fields.view, Fields.map]
  | none =>
    cases type with
    | none => simp only [ofNode, Fields.view, Fields.map]
    | some type =>
      cases type with
      | text keyword =>
        rcases items with _ | _ | _ <;>
          simp only [ofNode, Fields.view, Fields.map, Option.map_none, Option.map_some, Items.map,
            ofElements, Node.view]
      | _ => simp only [ofNode, Fields.view, Fields.map]

section

variable {schema other : Schema}

/-- Schemas with the same view are nodes with the same view. -/
theorem Node.view_schema_congr (h : schema.view = other.view) :
    (Node.schema schema).view = (Node.schema other).view := by
  have htype : DeclaredType.ofNode (.schema schema) = DeclaredType.ofNode (.schema other) := by
    rw [DeclaredType.ofNode_schema, DeclaredType.ofNode_schema, h]
  have hspecs : schema.specs? = other.specs? := by
    rw [Fields.specs?_eq_of_view, Fields.specs?_eq_of_view, h]
  obtain ⟨hreference, -, -, hdescription, hrequired, -⟩ := Fields.mk.inj h
  simp only [view, schema?, Option.bind_some, htype, hspecs, hreference, hdescription, hrequired]

namespace Definition

theorem parentOf_eq_of_view (schema : Schema) :
    parentOf schema = schema.view.allOf.bind fun parts => parts.head?.bind (·.reference) := by
  rw [parentOf, Fields.view, Fields.map, Option.bind_map]
  congr 1
  funext parts
  cases parts <;> rfl

/-- The required names of a definition, told from the view of its schema. -/
theorem required_eq_of_view (schema : Schema) :
    (bodyOf schema).bind (·.required) =
      match schema.view.allOf with
      | some parts => parts[1]?.bind (·.required)
      | none => schema.view.required := by
  obtain ⟨_, _, _, _, required, _, _, allOf⟩ := schema
  cases allOf with
  | none => rfl
  | some parts =>
    simp [bodyOf, Fields.view, Fields.map, Node.view, Option.bind_assoc, Option.bind_map,
      Function.comp_def]

/-- The properties of a definition, told from the view of its schema. -/
theorem specs?_eq_of_view (schema : Schema) :
    (bodyOf schema).bind (·.specs?) =
      match schema.view.allOf with
      | some parts => parts[1]?.bind (·.properties)
      | none => schema.specs? := by
  obtain ⟨_, _, _, _, required, _, _, allOf⟩ := schema
  cases allOf with
  | none => rfl
  | some parts =>
    simp [bodyOf, Fields.view, Fields.map, Node.view, Option.bind_assoc, Option.bind_map,
      Function.comp_def]

theorem properties_eq_of_specs? (id : String) (schema : Schema) :
    (ofSchema id schema).properties = ((bodyOf schema).bind (·.specs?)).getD [] := by
  rw [ofSchema]
  cases bodyOf schema with
  | none => rfl
  | some body => cases h : body.properties <;> simp [Fields.specs?, h]

/-- The kind of a definition, told from the view of its schema. -/
theorem kind_eq_of_view (schema : Schema) : Kind.ofSchema schema =
    match schema.view.type with
    | some (.text keyword) => if keyword = "object" then .object else .primitive keyword
    | none =>
      if schema.view.allOf.isSome || schema.view.properties.isSome then .object else .mixed
    | some _ => .mixed := by
  obtain ⟨_, type, _, _, _, _, _, _⟩ := schema
  rcases type with _ | _ | _ <;> simp [Kind.ofSchema, Fields.view, Fields.map]

/-- Schemas with the same view give the same definition. -/
theorem ofSchema_congr (id : String) (h : schema.view = other.view) :
    ofSchema id schema = ofSchema id other := by
  have hkind : Kind.ofSchema schema = Kind.ofSchema other := by
    rw [kind_eq_of_view, kind_eq_of_view, h]
  have hparent : parentOf schema = parentOf other := by
    rw [parentOf_eq_of_view, parentOf_eq_of_view, h]
  have hrequired : (bodyOf schema).bind (·.required) = (bodyOf other).bind (·.required) := by
    rw [required_eq_of_view, required_eq_of_view, h]
  have hspecs : (bodyOf schema).bind (·.specs?) = (bodyOf other).bind (·.specs?) := by
    rw [specs?_eq_of_view, specs?_eq_of_view, h, Fields.specs?_eq_of_view, Fields.specs?_eq_of_view, h]
  have hproperties : (ofSchema id schema).properties = (ofSchema id other).properties := by
    rw [properties_eq_of_specs?, properties_eq_of_specs?, hspecs]
  obtain ⟨-, -, htitle, hdescription, -⟩ := Fields.mk.inj h
  rw [Definition.mk.injEq]
  exact ⟨rfl, hkind, htitle, hdescription, hparent, congrArg (·.getD []) hrequired, hproperties⟩

end Definition

end

/-! ### The node of a value -/

namespace Json

/-- The node that a value is where a node is wanted. -/
def node (value : Json) : Node :=
  (Node.ofTree? value.tree).getD (.loose .null)

theorem ofTree?_tree_eq_node (value : Json) : Node.ofTree? value.tree = some value.node := by
  obtain ⟨node, hnode⟩ := Node.exists_ofTree? value
  rw [Json.node, hnode, Option.getD_some]

theorem ofItems?_tree_eq_nodes (items : List Json) :
    Node.ofItems? (treeItems items) = some (items.map node) := by
  rw [SchemaCompiler.ofItems?_tree]
  induction items with
  | nil => rfl
  | cons item items ih => rw [mapM_cons_eq_bind, ih, ofTree?_tree_eq_node]; rfl

theorem ofEntries?_tree_eq_nodes (entries : List (String × Json)) :
    Node.ofEntries? (treeEntries entries) =
      some (entries.map fun entry => (entry.1, entry.2.node)) := by
  rw [Node.ofEntries?_tree]
  induction entries with
  | nil => rfl
  | cons entry entries ih => rw [mapM_cons_eq_bind, ih, ofTree?_tree_eq_node]; rfl

/-- The view of the node of a value is told by that of its schema, if it is one. -/
theorem view_node_congr {value other : Json}
    (h : value.schema?.map Fields.view = other.schema?.map Fields.view) :
    value.node.view = other.node.view := by
  have hnode : ∀ value : Json, value.schema? = value.node.schema? := fun value => by
    rw [schema?, ofTree?_tree_eq_node, Option.bind_some]
  rw [hnode, hnode] at h
  cases hvalue : value.node with
  | schema schema =>
    cases hother : other.node with
    | schema schema' =>
      simp only [hvalue, hother, Node.schema?, Option.map_some, Option.some.injEq] at h
      exact Node.view_schema_congr h
    | loose => simp [hvalue, hother, Node.schema?] at h
  | loose kept =>
    cases hother : other.node with
    | schema => simp [hvalue, hother, Node.schema?] at h
    | loose kept' => simp [Node.view, Node.schema?, DeclaredType.ofNode]

end Json

end SchemaCompiler
