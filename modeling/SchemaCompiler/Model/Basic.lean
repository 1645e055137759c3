import SchemaCompiler.Model.Default
import SchemaCompiler.Model.FieldType

/-!
# Models

A model is what the compiler makes of an object definition: a type with a parent and a list of
properties, each described together with the methods that read, replace and extend it.
-/

namespace SchemaCompiler

/-- A method that takes one argument. -/
structure Method where
  /-- The name of the method. -/
  name : String
  /-- The name of its parameter. -/
  parameter : String
  /-- The documented type of the parameter. -/
  docType : String
  /-- The model that the argument must belong to. -/
  hint : Option TypeRef
  deriving DecidableEq, Repr, Inhabited

/-- A property of a model with its methods. -/
structure PropertyDescriptor where
  /-- The name of the property. -/
  name : String
  /-- The type of the property. -/
  type : FieldType
  /-- The documented type of the property. -/
  docType : String
  /-- Whether the property must be given. -/
  required : Bool
  /-- The value that the property starts with. -/
  default : Option Default
  /-- What the schema says about the property. -/
  description : Option String
  /-- The name of the method that reads the property. -/
  getter : String
  /-- The method that replaces the property. -/
  setter : Method
  /-- The method that adds one element, for collections. -/
  adder : Option Method
  deriving Inhabited

/-- Whether the property holds a collection. -/
def PropertyDescriptor.isCollection (property : PropertyDescriptor) : Bool :=
  property.type.element.isSome

/-- A generated type. -/
structure Model where
  /-- The name of the type. -/
  name : String
  /-- The namespace of the type. -/
  scope : String
  /-- The model that this one extends. -/
  parent : Option TypeRef
  /-- What the schema says about the type. -/
  description : Option String
  /-- The properties in the order of their declaration. -/
  properties : List PropertyDescriptor
  deriving Inhabited

namespace Model

/-- The full name of the model. -/
def typeRef (model : Model) : TypeRef :=
  ⟨model.scope, model.name⟩

/-- The first property of a given name. -/
def property? (model : Model) (name : String) : Option PropertyDescriptor :=
  model.properties.find? (·.name = name)

end Model

end SchemaCompiler
