import SchemaCompiler.Definition.Basic
import SchemaCompiler.Log.Notice
import SchemaCompiler.Reference
import SchemaCompiler.Table

/-!
# The table of types

Every definition of a document stands for a type: an object for the model that will be generated
from it, anything else for a primitive. The table records this for each identifier before any
definition is compiled, so references may point forward, backward and to themselves.

Two objects may derive the same type name. Then both stand for one model, the one compiled last,
and a notice names the later definition together with the one before it that had the name.
-/

namespace SchemaCompiler

/-- What an identifier stands for. -/
inductive Resolved where
  /-- A primitive type. -/
  | primitive (keyword : String)
  /-- A generated model. -/
  | model (name : String)
  deriving DecidableEq, Repr, Inhabited

/-- The keyword or name of a type. -/
def Resolved.name : Resolved → String
  | primitive keyword => keyword
  | model name => name

/-- The keyword of the type that any value has. -/
def mixedKeyword : String := "mixed"

/-- What a definition stands for. -/
def Definition.resolved (definition : Definition) : Resolved :=
  match definition.kind with
  | .object => .model definition.typeName
  | .primitive keyword => .primitive keyword
  | .mixed => .primitive mixedKeyword

/-- Why definitions cannot be compiled. -/
inductive CompileFault where
  /-- A reference names no definition. -/
  | unresolvedReference (reference target : String)
  /-- An optional property has a primitive type without a default. -/
  | noDefault (property keyword : String)
  deriving DecidableEq, Repr

/-- The wording of a fault. -/
def CompileFault.message : CompileFault → String
  | unresolvedReference reference target =>
    "unresolved reference '" ++ reference ++ "': no definition with identifier '" ++ target ++ "'"
  | noDefault property keyword =>
    "the property '" ++ property ++ "' with type '" ++ keyword ++
      "' was not recognised to set a default value"

/-- What every identifier stands for. -/
structure TypeMap where
  /-- The identifiers in the order of their first definition. -/
  table : Table Resolved
  deriving Inhabited

namespace TypeMap

/-- The table of a list of definitions. -/
def ofDefinitions (definitions : List Definition) : TypeMap :=
  ⟨.ofList (definitions.map fun definition => (definition.id, definition.resolved))⟩

/-- What an identifier stands for. -/
def get? (types : TypeMap) (id : String) : Option Resolved :=
  types.table.get? id

/-- What a reference stands for. -/
def resolve (types : TypeMap) (reference : String) : Except CompileFault Resolved :=
  match types.get? (Reference.target reference) with
  | some resolved => .ok resolved
  | none => .error (.unresolvedReference reference (Reference.target reference))

end TypeMap

/-! ### Notices -/

/-- What there is to say when the type name of a definition is derived. -/
def Definition.typeNameNotices (definition : Definition) : List Notice :=
  match definition.title with
  | none => []
  | some title =>
    if definition.titleName?.isNone then [.emptyTitle definition.id title] else []

namespace TypeMap

/-- What there is to say about a list of definitions, when `owners` holds for every type name
the last definition before them that derived it. -/
def noticesFrom (owners : List (String × String)) : List Definition → List Notice
  | [] => []
  | definition :: later =>
    let registered : Notice := .registered definition.id definition.resolved.name
    if definition.isObject then
      let name := definition.typeName
      let taken :=
        match owners.lookup name with
        | some first => [Notice.nameTaken name first definition.id]
        | none => []
      definition.typeNameNotices ++ taken ++ registered ::
        noticesFrom (Entries.insert name definition.id owners) later
    else registered :: noticesFrom owners later

/-- What there is to say when the table of a list of definitions is built. -/
def notices (definitions : List Definition) : List Notice :=
  noticesFrom [] definitions

end TypeMap

end SchemaCompiler
