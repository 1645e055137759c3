import SchemaCompiler.Tree.Format

/-!
# Notices

What a run has to say besides its result. Every notice has a level, names the part of the
compiler that gives it, and carries a fixed message together with named values.

The functions that compute results do not give notices themselves. Beside each of them stands a
function that computes its notices from the same input, so a result never depends on the log.
-/

namespace SchemaCompiler

/-- How much a notice matters, the most first. -/
inductive Level where
  /-- A failure. -/
  | error
  /-- Something is probably wrong with the schema. -/
  | warn
  /-- A step of a run. -/
  | info
  /-- A detail of a step. -/
  | debug
  /-- A single entry of a table. -/
  | trace
  deriving DecidableEq, Repr, Inhabited

namespace Level

/-- The levels from the one that matters most. -/
def all : List Level := [error, warn, info, debug, trace]

/-- The rank of a level; a larger one matters less. -/
def rank : Level → Nat
  | error => 1
  | warn => 2
  | info => 3
  | debug => 4
  | trace => 5

/-- The level in capitals. -/
def name : Level → String
  | error => "ERROR"
  | warn => "WARN"
  | info => "INFO"
  | debug => "DEBUG"
  | trace => "TRACE"

end Level

/-- The value that a notice carries under a name. -/
inductive NoticeValue where
  /-- A text that is shown as it is. -/
  | plain (s : String)
  /-- A text that is shown between quotes. -/
  | quoted (s : String)
  /-- A number of things. -/
  | count (n : Nat)
  deriving DecidableEq, Repr

/-- Something that a run has to say. -/
inductive Notice where
  /-- A composition names no parent in its first part. -/
  | noParentLinked (definition : String)
  /-- A composition has more than two parts. -/
  | partsIgnored (definition : String) (extra : Nat)
  /-- A title has nothing to make a type name of. -/
  | emptyTitle (definition title : String)
  /-- Two definitions derive the same type name. -/
  | nameTaken (typeName first second : String)
  /-- A definition is entered into the table of types. -/
  | registered (definition resolved : String)
  /-- The parent of a definition is a primitive. -/
  | parentIgnored (definition parent : String)
  /-- A definition has been compiled. -/
  | compiled (definition model : String) (fields : Nat)
  /-- A document has been read from a file. -/
  | loaded (path : String) (format : Format) (definitions : Nat)
  /-- Files are only listed, not written. -/
  | nothingWritten (directory : String) (files : Nat)
  /-- A file has been written. -/
  | wrote (path : String)
  deriving DecidableEq, Repr

namespace Notice

/-- The level of a notice. -/
def level : Notice → Level
  | noParentLinked .. | emptyTitle .. | nameTaken .. | parentIgnored .. => .warn
  | loaded .. | nothingWritten .. => .info
  | partsIgnored .. | compiled .. | wrote .. => .debug
  | registered .. => .trace

/-- The part of the compiler that gives a notice. -/
def target : Notice → String
  | noParentLinked .. | partsIgnored .. => "swagger_models::lower"
  | emptyTitle .. | nameTaken .. | registered .. => "swagger_models::resolve"
  | parentIgnored .. | compiled .. => "swagger_models::compile"
  | loaded .. => "swagger_models::loader"
  | nothingWritten .. | wrote .. => "swagger_models::output"

/-- The message of a notice, which is the same for all notices of a kind. -/
def message : Notice → String
  | noParentLinked .. => "allOf without a leading $ref; no parent linked"
  | partsIgnored .. => "ignoring trailing allOf elements"
  | emptyTitle .. => "title yields an empty type name; using the identifier"
  | nameTaken .. => "two definitions derive the same output type name; the later one wins"
  | registered .. => "registered"
  | parentIgnored .. => "allOf parent is not a model; ignored"
  | compiled .. => "compiled"
  | loaded .. => "loaded schema"
  | nothingWritten .. => "dry run; nothing written"
  | wrote .. => "wrote"

/-- The values that a notice carries, with their names. -/
def fields : Notice → List (String × NoticeValue)
  | noParentLinked definition => [("definition", .quoted definition)]
  | partsIgnored definition extra => [("definition", .quoted definition), ("extra", .count extra)]
  | emptyTitle definition title => [("definition", .plain definition), ("title", .plain title)]
  | nameTaken typeName first second =>
    [("type_name", .plain typeName), ("first", .quoted first), ("second", .plain second)]
  | registered definition resolved =>
    [("definition", .plain definition), ("resolved", .quoted resolved)]
  | parentIgnored definition parent =>
    [("definition", .plain definition), ("parent", .plain parent)]
  | compiled definition model fields =>
    [("definition", .plain definition), ("model", .plain model), ("fields", .count fields)]
  | loaded path format definitions =>
    [("path", .plain path), ("format", .plain format.name), ("definitions", .count definitions)]
  | nothingWritten directory files => [("dir", .plain directory), ("files", .count files)]
  | wrote path => [("path", .plain path)]

/-- The name under which a notice carries its message. -/
def messageName : String := "message"

/-- Whether a notice carries a value, or its message, under a name. -/
def carries (notice : Notice) (name : String) : Bool :=
  name == messageName || notice.fields.any (·.1 == name)

end Notice

end SchemaCompiler
