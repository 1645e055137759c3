import SchemaCompiler.Json.Basic
import SchemaCompiler.Table

/-!
# Schemas

A document is a table of definitions, each a schema. A schema has eight fields, all of them
optional, and three of them hold further nodes: `properties`, `items` and `allOf`.

A nested node is read leniently. If it fits the shape of a schema it is one; otherwise it is kept
as the JSON value that it is, and means nothing in particular.
-/

namespace SchemaCompiler

/-- The `items` of a schema. -/
inductive Items (α : Type) where
  /-- One node for each place of an array. -/
  | tuple (nodes : List α)
  /-- One node for all elements of an array. -/
  | single (node : α)
  deriving Inhabited

/-- The fields of a schema whose nested nodes are of type `α`. -/
structure Fields (α : Type) where
  /-- The reference that stands for the schema. -/
  reference : Option String := none
  /-- The type, which is not always a keyword. -/
  type : Option Json := none
  /-- The title. -/
  title : Option String := none
  /-- The description. -/
  description : Option String := none
  /-- The names of the properties that must be given. -/
  required : Option (List String) := none
  /-- The properties, each name once, in order. -/
  properties : Option (List (String × α)) := none
  /-- The elements. -/
  items : Option (Items α) := none
  /-- The parts of a composition. -/
  allOf : Option (List α) := none
  deriving Inhabited

/-- A node inside a schema. -/
inductive Node where
  /-- A node that has the shape of a schema. -/
  | schema (fields : Fields Node)
  /-- Any other node. -/
  | loose (value : Json)

instance : Inhabited Node := ⟨.loose .null⟩

/-- A schema. -/
abbrev Schema := Fields Node

/-- The schema that a node is, if it is one. -/
def Node.schema? : Node → Option Schema
  | schema fields => some fields
  | loose _ => none

/-- The type of a schema when it is a keyword. -/
def Fields.keyword? {α : Type} (fields : Fields α) : Option String :=
  match fields.type with
  | some (.text keyword) => some keyword
  | _ => none

/-- A document: its definitions by identifier. -/
structure Document where
  /-- The definitions in the order of the document. -/
  definitions : Table Schema := Table.empty
  deriving Inhabited

/-- The keys of a schema that mean something. -/
inductive Key where
  /-- The key `$ref`. -/
  | reference
  /-- The key `type`. -/
  | type
  /-- The key `title`. -/
  | title
  /-- The key `description`. -/
  | description
  /-- The key `required`. -/
  | required
  /-- The key `properties`. -/
  | properties
  /-- The key `items`. -/
  | items
  /-- The key `allOf`. -/
  | allOf
  deriving DecidableEq, Repr

namespace Key

/-- The keys in the order in which a schema without keys gives its fields. -/
def all : List Key :=
  [reference, type, title, description, required, properties, items, allOf]

/-- A key as it is written. -/
def text : Key → String
  | reference => "$ref"
  | type => "type"
  | title => "title"
  | description => "description"
  | required => "required"
  | properties => "properties"
  | items => "items"
  | allOf => "allOf"

/-- The key with a given text. -/
def ofText? (s : String) : Option Key :=
  all.find? (·.text = s)

end Key

end SchemaCompiler
