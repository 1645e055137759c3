/-!
# Settings

A run of the compiler is steered by two texts: the namespace of the generated types and the name
of the base type that models without a parent extend. Namespaces are written with `::` between
their segments.
-/

namespace SchemaCompiler

/-- The full name of a generated type. -/
structure TypeRef where
  /-- The namespace, with `::` between its segments. -/
  scope : String
  /-- The name inside the namespace. -/
  name : String
  deriving DecidableEq, Repr, Inhabited

/-- A type as it is written in text: a type without a namespace is its bare name. -/
def TypeRef.shown (ref : TypeRef) : String :=
  if ref.scope.isEmpty then ref.name else ref.scope ++ "::" ++ ref.name

/-- The texts that steer a run. -/
structure Settings where
  /-- The namespace of every generated type. -/
  scope : String := "Model"
  /-- The name of the type that models without a parent extend. -/
  baseType : String := "BaseModel"
  deriving DecidableEq, Repr, Inhabited

namespace Settings

/-- The type of a given name in the namespace of the settings. -/
def typeRef (settings : Settings) (name : String) : TypeRef :=
  ⟨settings.scope, name⟩

/-- The base type. -/
def baseRef (settings : Settings) : TypeRef :=
  settings.typeRef settings.baseType

/-- Cuts a namespace at every `::`, from left to right. -/
def splitScope : List Char → List (List Char)
  | [] => [[]]
  | ':' :: ':' :: rest => [] :: splitScope rest
  | c :: rest =>
    match splitScope rest with
    | [] => [[c]]
    | segment :: later => (c :: segment) :: later

/-- The segments of the namespace; empty ones do not count. -/
def segments (settings : Settings) : List String :=
  ((splitScope settings.scope.toList).filter (!·.isEmpty)).map String.ofList

end Settings

end SchemaCompiler
