import SchemaCompiler.Definition.Basic
import SchemaCompiler.Log.Notice
import SchemaCompiler.Schema.Basic

/-!
# Definitions from schemas

What a schema of the document says about the type to be generated.

* The **type** of a node is its reference, if it has one; else the keyword of its `type`, where
  `array` is an array of the single node in `items`, or of anything; a list of types is any value.
* The **kind** of a definition is told by its keyword. Without a type it is an object when it
  has properties or parts.
* A **composition** takes its parent from the reference in its first part, and its properties and
  required names from its second part; its own are not looked at, nor are later parts.
-/

namespace SchemaCompiler

/-- The type that a nested node declares. -/
def DeclaredType.ofNode : Node → DeclaredType
  | .loose _ => unknown
  | .schema ⟨some text, _, _, _, _, _, _, _⟩ => reference text
  | .schema ⟨none, type, _, _, _, _, items, _⟩ =>
    match type with
    | some (.text keyword) =>
      if keyword = "array" then
        match items with
        | some (.single node) => arrayOf (ofNode node)
        | _ => arrayOf mixed
      else primitive keyword
    | some (.list _) => mixed
    | _ => unknown

/-- The type that a schema declares. -/
def DeclaredType.ofSchema (schema : Schema) : DeclaredType :=
  ofNode (.schema schema)

/-- The kind of thing that a schema defines. -/
def Kind.ofSchema (schema : Schema) : Kind :=
  match schema.type with
  | some (.text keyword) => if keyword = "object" then object else primitive keyword
  | none => if schema.allOf.isSome || schema.properties.isSome then object else mixed
  | some _ => mixed

/-- The property that a node declares under a name. -/
def PropertySpec.ofNode (name : String) (node : Node) : PropertySpec :=
  { name
    type := .ofNode node
    description := node.schema?.bind (·.description) }

namespace Definition

/-- The reference that the first part of a composition makes. -/
def parentOfParts (parts : List Node) : Option String :=
  parts.head?.bind fun part => part.schema?.bind (·.reference)

/-- The reference to the definition that a schema extends. -/
def parentOf (schema : Schema) : Option String :=
  schema.allOf.bind parentOfParts

/-- The schema whose properties and required names count: the second part of a composition, and
otherwise the schema itself. -/
def bodyOf (schema : Schema) : Option Schema :=
  match schema.allOf with
  | some parts => parts[1]?.bind (·.schema?)
  | none => some schema

/-- The definition that a schema gives under an identifier. -/
def ofSchema (id : String) (schema : Schema) : Definition :=
  { id
    kind := .ofSchema schema
    title := schema.title
    description := schema.description
    parent := parentOf schema
    required := ((bodyOf schema).bind (·.required)).getD []
    properties :=
      (((bodyOf schema).bind (·.properties)).getD []).map fun entry =>
        .ofNode entry.1 entry.2 }

/-- What there is to say about the composition of a schema. -/
def compositionNotices (id : String) (schema : Schema) : List Notice :=
  match schema.allOf with
  | none => []
  | some parts =>
    (if (parentOfParts parts).isNone then [.noParentLinked id] else []) ++
      (if 2 < parts.length then [.partsIgnored id (parts.length - 2)] else [])

end Definition

/-- The definitions of a document in its order. -/
def Document.toDefinitions (document : Document) : List Definition :=
  document.definitions.entries.map fun entry => .ofSchema entry.1 entry.2

/-- What there is to say about the compositions of a document. -/
def Document.compositionNotices (document : Document) : List Notice :=
  document.definitions.entries.flatMap fun entry =>
    Definition.compositionNotices entry.1 entry.2

end SchemaCompiler
