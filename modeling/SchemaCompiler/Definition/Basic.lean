import SchemaCompiler.Name

/-!
# Definitions

A definition is what the compiler takes from a schema of the document: what kind of thing it is,
how it is called, what it extends, and which properties it declares. Types are still as declared;
references are not followed.
-/

namespace SchemaCompiler

/-- The type that a schema declares. -/
inductive DeclaredType where
  /-- A type named by a keyword. -/
  | primitive (keyword : String)
  /-- A reference to a definition. -/
  | reference (text : String)
  /-- An array of elements. -/
  | arrayOf (element : DeclaredType)
  /-- Any value. -/
  | mixed
  /-- Nothing is declared. -/
  | unknown
  deriving DecidableEq, Repr, Inhabited

/-- What kind of thing a definition defines. -/
inductive Kind where
  /-- An object, which becomes a model. -/
  | object
  /-- Another name of a primitive type. -/
  | primitive (keyword : String)
  /-- Anything else. -/
  | mixed
  deriving DecidableEq, Repr, Inhabited

/-- A property as declared. -/
structure PropertySpec where
  /-- The name of the property. -/
  name : String
  /-- The declared type. -/
  type : DeclaredType
  /-- What the schema says about the property. -/
  description : Option String := none
  deriving DecidableEq, Repr, Inhabited

/-- A definition of a document. -/
structure Definition where
  /-- The identifier under which the document defines it. -/
  id : String
  /-- What kind of thing it is. -/
  kind : Kind
  /-- The title. -/
  title : Option String := none
  /-- What the schema says about the definition. -/
  description : Option String := none
  /-- The reference to the definition that this one extends. -/
  parent : Option String := none
  /-- The names of the properties that must be given. -/
  required : List String := []
  /-- The properties in the order of their declaration. -/
  properties : List PropertySpec := []
  deriving DecidableEq, Repr, Inhabited

namespace Definition

/-- Whether the definition becomes a model. -/
def isObject (definition : Definition) : Bool :=
  definition.kind = .object

/-- Whether a property of a given name must be given. -/
def isRequired (definition : Definition) (property : String) : Bool :=
  definition.required.contains property

/-- The type name that the title gives, unless that is empty. -/
def titleName? (definition : Definition) : Option String :=
  (definition.title.map Name.typeName).filter (!·.isEmpty)

/-- The name of the type that the definition becomes: the type name of its title, or that of its
identifier if there is no title or the title's is empty. -/
def typeName (definition : Definition) : String :=
  definition.titleName?.getD (Name.typeName definition.id)

end Definition

end SchemaCompiler
