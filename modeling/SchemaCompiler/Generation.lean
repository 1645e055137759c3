import SchemaCompiler.Definition.OfSchema
import SchemaCompiler.Model.Basic
import SchemaCompiler.Text.Blank
import SchemaCompiler.TypeMap

/-!
# Generation

The models of a list of definitions. First the table of types is built from all definitions; then
each object definition is compiled against it, in order. The first fault ends the run. A model is
stored under its name, so of several with one name the last is kept, at the place of the first.

## The model

A property's type is its declared type with every reference replaced by what it stands for. The
keyword `array` is a collection of anything, also when a reference leads to it, and `mixed` is any
value. A required property has no default. The adder of a collection is named for the singular of
the property.
-/

namespace SchemaCompiler

namespace FieldType

/-- The type that a primitive keyword names. -/
def ofKeyword (keyword : String) : FieldType :=
  if keyword = "array" then collection mixed
  else if keyword = mixedKeyword then mixed
  else primitive keyword

/-- The type that a definition stands for. -/
def ofResolved (settings : Settings) : Resolved → FieldType
  | .model name => model (settings.typeRef name)
  | .primitive keyword => ofKeyword keyword

/-- The type of a declared type, with every reference followed. -/
def ofDeclared (types : TypeMap) (settings : Settings) :
    DeclaredType → Except CompileFault FieldType
  | .primitive keyword => .ok (ofKeyword keyword)
  | .reference text =>
    match types.resolve text with
    | .ok resolved => .ok (ofResolved settings resolved)
    | .error fault => .error fault
  | .arrayOf element =>
    match ofDeclared types settings element with
    | .ok type => .ok (collection type)
    | .error fault => .error fault
  | .mixed => .ok mixed
  | .unknown => .ok unknown

end FieldType

namespace PropertyDescriptor

/-- The default of a property: none when it is required. -/
def defaultOf (name : String) (type : FieldType) (required : Bool) :
    Except CompileFault (Option Default) :=
  if required then .ok none
  else
    match Default.ofType? type with
    | .ok value => .ok value
    | .error keyword => .error (.noDefault name keyword)

/-- The method that replaces a property. -/
def setterOf (name : String) (type : FieldType) : Method :=
  { name := Name.setter (Name.accessorStem name)
    parameter := name
    docType := type.docType
    hint := type.hint }

/-- The method that adds one element to a property, when its type is a collection. -/
def adderOf (name : String) (type : FieldType) : Option Method :=
  type.element.map fun element =>
    { name := Name.adder (Name.singular (Name.accessorStem name))
      parameter := Name.singular name
      docType := element.docType
      hint := element.hint }

/-- A property with its methods, from its type and default. -/
def ofType (spec : PropertySpec) (required : Bool) (type : FieldType) (default : Option Default) :
    PropertyDescriptor :=
  { name := spec.name
    type
    docType := type.docType
    required
    default
    description := spec.description
    getter := Name.getter (Name.accessorStem spec.name)
    setter := setterOf spec.name type
    adder := adderOf spec.name type }

/-- The compiled form of a declared property. -/
def compile (types : TypeMap) (settings : Settings) (spec : PropertySpec) (required : Bool) :
    Except CompileFault PropertyDescriptor :=
  match FieldType.ofDeclared types settings spec.type with
  | .error fault => .error fault
  | .ok type =>
    match defaultOf spec.name type required with
    | .error fault => .error fault
    | .ok default => .ok (ofType spec required type default)

/-- The compiled forms of properties, or the first fault. -/
def compileAll (types : TypeMap) (settings : Settings) (definition : Definition) :
    List PropertySpec → Except CompileFault (List PropertyDescriptor)
  | [] => .ok []
  | spec :: specs =>
    match compile types settings spec (definition.isRequired spec.name) with
    | .error fault => .error fault
    | .ok property =>
      match compileAll types settings definition specs with
      | .error fault => .error fault
      | .ok properties => .ok (property :: properties)

end PropertyDescriptor

namespace Model

/-- The name of the model of a definition: the one in the table, if the identifier stands for a
model there. -/
def nameOf (types : TypeMap) (definition : Definition) : String :=
  match types.get? definition.id with
  | some (.model name) => name
  | _ => definition.typeName

/-- The model that a definition extends. A parent that is no model does not count, but a
reference that names nothing is a fault. -/
def parentOf (types : TypeMap) (settings : Settings) (definition : Definition) :
    Except CompileFault (Option TypeRef) :=
  match definition.parent with
  | none => .ok none
  | some reference =>
    match types.resolve reference with
    | .ok (.model name) => .ok (some (settings.typeRef name))
    | .ok (.primitive _) => .ok none
    | .error fault => .error fault

/-- The model of a definition. -/
def compile (types : TypeMap) (settings : Settings) (definition : Definition) :
    Except CompileFault Model :=
  match parentOf types settings definition with
  | .error fault => .error fault
  | .ok parent =>
    match PropertyDescriptor.compileAll types settings definition definition.properties with
    | .error fault => .error fault
    | .ok properties =>
      .ok
        { name := nameOf types definition
          scope := settings.scope
          parent
          description := definition.description.filter (!Text.isBlankText ·)
          properties }

/-- The models of the object definitions of a list, in order, or the first fault. -/
def compileAll (types : TypeMap) (settings : Settings) :
    List Definition → Except CompileFault (List Model)
  | [] => .ok []
  | definition :: later =>
    if definition.isObject then
      match compile types settings definition with
      | .error fault => .error fault
      | .ok model =>
        match compileAll types settings later with
        | .error fault => .error fault
        | .ok models => .ok (model :: models)
    else compileAll types settings later

/-! ### Notices -/

/-- What there is to say when a definition is compiled, whether or not that succeeds. -/
def notices (types : TypeMap) (definition : Definition) : List Notice :=
  let name :=
    match types.get? definition.id with
    | some (.model _) => []
    | _ => definition.typeNameNotices
  let parent :=
    match definition.parent.map types.resolve with
    | some (.ok (.primitive keyword)) => [Notice.parentIgnored definition.id keyword]
    | _ => []
  name ++ parent

/-- What there is to say when the object definitions of a list are compiled, up to the first
fault. -/
def noticesOfAll (types : TypeMap) (settings : Settings) : List Definition → List Notice
  | [] => []
  | definition :: later =>
    if definition.isObject then
      notices types definition ++
        match compile types settings definition with
        | .error _ => []
        | .ok model =>
          .compiled definition.id model.name model.properties.length ::
            noticesOfAll types settings later
    else noticesOfAll types settings later

end Model

/-- What a run makes of its definitions. -/
structure Generation where
  /-- What every identifier stands for. -/
  types : TypeMap
  /-- The models under their names. -/
  models : Table Model
  deriving Inhabited

namespace Generation

/-- The result of compiling a list of definitions, or the first fault. -/
def ofDefinitions (settings : Settings) (definitions : List Definition) :
    Except CompileFault Generation :=
  let types := TypeMap.ofDefinitions definitions
  match Model.compileAll types settings definitions with
  | .error fault => .error fault
  | .ok models => .ok ⟨types, .ofList (models.map fun model => (model.name, model))⟩

/-- The result of compiling a document, or the first fault. -/
def ofDocument (settings : Settings) (document : Document) : Except CompileFault Generation :=
  ofDefinitions settings document.toDefinitions

/-- What there is to say when a list of definitions is compiled. -/
def notices (settings : Settings) (definitions : List Definition) : List Notice :=
  TypeMap.notices definitions ++
    Model.noticesOfAll (.ofDefinitions definitions) settings definitions

/-- What there is to say when a document is compiled. -/
def noticesOfDocument (settings : Settings) (document : Document) : List Notice :=
  document.compositionNotices ++ notices settings document.toDefinitions

end Generation

end SchemaCompiler
