/-!
# JSON values

A JSON value as the compiler keeps it: objects remember the order of their keys, and a number is
either an integer or a floating-point number, which may be infinite or not a number.
-/

namespace SchemaCompiler

/-- A number of a document. -/
inductive Number where
  /-- An integer. -/
  | integer (n : Int)
  /-- A floating-point number. -/
  | float (x : Float)
  deriving Inhabited

/-- A JSON value. -/
inductive Json where
  /-- The value `null`. -/
  | null
  /-- A truth value. -/
  | bool (b : Bool)
  /-- A number. -/
  | number (n : Number)
  /-- A text. -/
  | text (s : String)
  /-- An array. -/
  | list (items : List Json)
  /-- An object; its keys are in the order in which they were first given. -/
  | object (entries : List (String × Json))
  deriving Inhabited

end SchemaCompiler
