import SchemaCompiler.Settings

/-!
# Field types

The type of a property in a generated model, and the three views of it that a model shows: the
name used in documentation, the model that restricts an argument, and the type of one element.
-/

namespace SchemaCompiler

/-- The type of a property in a generated model. -/
inductive FieldType where
  /-- A type named by a keyword of the schema language, such as `string`. -/
  | primitive (keyword : String)
  /-- A generated model. -/
  | model (ref : TypeRef)
  /-- A collection of elements. -/
  | collection (element : FieldType)
  /-- Any value. -/
  | mixed
  /-- Nothing is known about the values. -/
  | unknown
  deriving DecidableEq, Repr, Inhabited

namespace FieldType

/-- The type's name in documentation. Numbers are called `float`, a collection is its element
followed by `[]`, and a type of which nothing is known has no name. -/
def docType : FieldType → String
  | primitive keyword => if keyword = "number" then "float" else keyword
  | model ref => ref.name
  | collection element => element.docType ++ "[]"
  | mixed => "mixed"
  | unknown => ""

/-- The model that an argument of this type must belong to. -/
def hint : FieldType → Option TypeRef
  | model ref => some ref
  | _ => none

/-- The type of one element of a collection. -/
def element : FieldType → Option FieldType
  | collection element => some element
  | _ => none

end FieldType

end SchemaCompiler
