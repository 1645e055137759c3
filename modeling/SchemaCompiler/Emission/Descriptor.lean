import SchemaCompiler.Json.Printer
import SchemaCompiler.Model.Basic

/-!
# Descriptors

A model as a JSON document, for tools that generate code from it. Fields that are absent are left
out, except for the parent and the default, which are `null` then. A model without a parent names
the base type in a last field `extends`.
-/

namespace SchemaCompiler

/-- The sentence that every generated file carries. -/
def generatedNotice : String :=
  "This file was generated automatically, you might want to avoid editing it"

/-- An entry that is left out when there is no value. -/
def optionalEntry {α : Type} (key : String) (toJson : α → Json) :
    Option α → List (String × Json)
  | some value => [(key, toJson value)]
  | none => []

/-- A value that is `null` when there is none. -/
def nullable {α : Type} (toJson : α → Json) : Option α → Json
  | some value => toJson value
  | none => .null

/-- The full name of a type as a JSON value. -/
def TypeRef.toJson (ref : TypeRef) : Json :=
  .object [("namespace", .text ref.scope), ("name", .text ref.name)]

/-- A field type as a JSON value. -/
def FieldType.toJson : FieldType → Json
  | primitive keyword => .object [("kind", .text "primitive"), ("of", .text keyword)]
  | model ref => .object [("kind", .text "model"), ("of", ref.toJson)]
  | collection element => .object [("kind", .text "collection"), ("of", element.toJson)]
  | mixed => .object [("kind", .text "mixed")]
  | unknown => .object [("kind", .text "unknown")]

/-- A method as a JSON value. -/
def Method.toJson (method : Method) : Json :=
  .object <|
    [("name", .text method.name), ("param", .text method.parameter),
      ("param_doc_type", .text method.docType)] ++
    optionalEntry "hint" TypeRef.toJson method.hint

/-- A property as a JSON value. -/
def PropertyDescriptor.toJson (property : PropertyDescriptor) : Json :=
  .object <|
    [("name", .text property.name), ("type", property.type.toJson),
      ("doc_type", .text property.docType), ("required", .bool property.required),
      ("default", nullable Default.toJson property.default)] ++
    optionalEntry "description" .text property.description ++
    [("getter", .text property.getter), ("setter", property.setter.toJson)] ++
    optionalEntry "adder" Method.toJson property.adder

namespace Model

/-- The entries of a model as a JSON object. -/
def toEntries (model : Model) : List (String × Json) :=
  [("name", .text model.name), ("namespace", .text model.scope),
    ("parent", nullable TypeRef.toJson model.parent)] ++
  optionalEntry "description" .text model.description ++
  [("properties", .list (model.properties.map PropertyDescriptor.toJson))]

/-- A model as a JSON value. -/
def toJson (model : Model) : Json :=
  .object model.toEntries

/-- The descriptor of a model: the model together with the base type that stands in for an absent
parent. -/
def descriptor (settings : Settings) (model : Model) : Json :=
  .object <|
    model.toEntries ++
      if model.parent.isNone then [("extends", settings.baseRef.toJson)] else []

end Model

/-- The descriptor of the base type. -/
def Settings.baseDescriptor (settings : Settings) : Json :=
  .object [("name", .text settings.baseType), ("namespace", .text settings.scope),
    ("base", .bool true), ("notice", .text generatedNotice)]

end SchemaCompiler
