import SchemaCompiler.Json.Basic
import SchemaCompiler.TypeMap

/-!
# Tables of types as JSON

A table of types as a JSON object: every identifier, in the order of the table, with the kind and
the name of what it stands for.
-/

namespace SchemaCompiler

/-- What an identifier stands for as a JSON value. -/
def Resolved.toJson : Resolved → Json
  | primitive keyword => .object [("kind", .text "primitive"), ("name", .text keyword)]
  | model name => .object [("kind", .text "model"), ("name", .text name)]

/-- A table of types as a JSON value. -/
def TypeMap.toJson (types : TypeMap) : Json :=
  .object (types.table.entries.map fun entry => (entry.1, entry.2.toJson))

end SchemaCompiler
