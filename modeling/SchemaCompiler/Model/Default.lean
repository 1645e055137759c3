import SchemaCompiler.Decimal.Layout
import SchemaCompiler.Json.Basic
import SchemaCompiler.Model.FieldType

/-!
# Default values

The value that an optional property of a model starts with. A collection starts empty and the
four primitive keywords with a zero value start with it. Models and types without a fixed shape
have no default. No other keyword has one either, but there that is a fault of the schema.
-/

namespace SchemaCompiler

/-- The value that an optional property starts with. -/
inductive Default where
  /-- The array without elements. -/
  | emptyArray
  /-- The empty text. -/
  | emptyText
  /-- An integer. -/
  | integer (n : Int)
  /-- A floating-point number. -/
  | float (x : Float)
  /-- A truth value. -/
  | bool (b : Bool)
  deriving Inhabited

namespace Default

/-- A default as a JSON value. -/
def toJson : Default → Json
  | emptyArray => .list []
  | emptyText => .text ""
  | integer n => .number (.integer n)
  | float x => .number (.float x)
  | bool b => .bool b

/-- A default as the outline shows it. -/
def shown : Default → String
  | emptyArray => "[]"
  | emptyText => "\"\""
  | integer n => toString n
  | float x => floatText .outline x
  | bool b => if b then "true" else "false"

/-- The zero value of a primitive keyword, if it has one. -/
def ofKeyword? : String → Option Default
  | "array" => some emptyArray
  | "string" => some emptyText
  | "integer" => some (integer 0)
  | "number" => some (float 0.0)
  | "boolean" => some (bool false)
  | _ => none

/-- The default of a type: `.ok none` when the type has none, and the keyword as the fault when
it is a primitive without a zero value. -/
def ofType? : FieldType → Except String (Option Default)
  | .collection _ => .ok (some emptyArray)
  | .primitive keyword =>
    match ofKeyword? keyword with
    | some value => .ok (some value)
    | none => .error keyword
  | .model _ | .mixed | .unknown => .ok none

end Default

end SchemaCompiler
