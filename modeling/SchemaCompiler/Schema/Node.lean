import SchemaCompiler.Schema.Basic
import SchemaCompiler.Tree.Basic

/-!
# Nested nodes

`Node.ofTree?` reads a nested node from a tree that has neither tags nor breaks. The tree is tried
as a schema first and kept as a JSON value otherwise, so every tree with text keys is a node.

## The model

A map is a schema when each key of a schema occurs at most once and its value fits; other keys mean
nothing. A whole number as a key selects the field with that number, counted from zero. A list is
a schema when it gives the eight fields in order. The value `null` leaves a field out. The `items`
of a schema are a tuple whenever they are a list of nodes.
-/

namespace SchemaCompiler

/-! ### JSON values -/

/-- A number as a JSON value; JSON has no infinities. -/
def Number.toJson : Number → Json
  | .integer n => .number (.integer n)
  | .float x => if x.isFinite then .number (.float x) else .null

namespace Json

mutual

/-- The JSON value of a tree; `none` when a key is not a text. -/
def ofTree? : Tree → Option Json
  | .null => some .null
  | .bool b => some (.bool b)
  | .number n => some n.toJson
  | .text s => some (.text s)
  | .list items => (ofItems? items).map .list
  | .map entries => (ofEntries? entries).map fun pairs => .object (Entries.ofPairs pairs)
  | .tagged _ _ | .broken _ => none

/-- The JSON values of a list of trees. -/
def ofItems? : List Tree → Option (List Json)
  | [] => some []
  | item :: items =>
    match ofTree? item with
    | some value => (ofItems? items).map (value :: ·)
    | none => none

/-- The entries of an object, repeated keys kept. -/
def ofEntries? : List (Tree × Tree) → Option (List (String × Json))
  | [] => some []
  | (key, value) :: entries =>
    match key, ofTree? value with
    | .text name, some value => (ofEntries? entries).map ((name, value) :: ·)
    | _, _ => none

end

end Json

/-! ### Fields -/

/-- What a key of a nested map selects. -/
inductive Selected where
  /-- A field of the schema. -/
  | field (key : Key)
  /-- Nothing: the key means nothing. -/
  | nothing
  /-- The key cannot stand in a schema. -/
  | misfit

/-- What a key of a nested map selects: a text names a field, and a number counts it. -/
def Selected.ofTree : Tree → Selected
  | .text name =>
    match Key.ofText? name with
    | some key => field key
    | none => nothing
  | .number (.integer (.ofNat n)) =>
    match Key.all[n]? with
    | some key => field key
    | none => nothing
  | _ => misfit

/-- The text of every item of a list. -/
def texts? : List Tree → Option (List String)
  | [] => some []
  | .text s :: items => (texts? items).map (s :: ·)
  | _ :: _ => none

/-- Any JSON value, or nothing for the empty value. -/
def optionalJson? : Tree → Option (Option Json)
  | .null => some none
  | tree => (Json.ofTree? tree).map some

/-! ### Nodes -/

namespace Node

/-- A schema if there is one, and otherwise the JSON value of the tree. -/
def orLoose (schema? : Option Schema) (tree : Tree) : Option Node :=
  match schema? with
  | some fields => some (.schema fields)
  | none => (Json.ofTree? tree).map .loose

mutual

/-- The node of a tree; `none` when it is neither a schema nor a JSON value. -/
def ofTree? : Tree → Option Node
  | .map entries => orLoose (fieldsOf? [] {} entries) (.map entries)
  | .list items => orLoose (positional? Key.all {} items) (.list items)
  | .null => orLoose none .null
  | .bool b => orLoose none (.bool b)
  | .number n => orLoose none (.number n)
  | .text s => orLoose none (.text s)
  | .tagged _ _ | .broken _ => none

/-- The nodes of a list of trees. -/
def ofItems? : List Tree → Option (List Node)
  | [] => some []
  | item :: items =>
    match ofTree? item with
    | some node => (ofItems? items).map (node :: ·)
    | none => none

/-- The nodes of the entries of a map, repeated keys kept. -/
def ofEntries? : List (Tree × Tree) → Option (List (String × Node))
  | [] => some []
  | (key, value) :: entries =>
    match key, ofTree? value with
    | .text name, some node => (ofEntries? entries).map ((name, node) :: ·)
    | _, _ => none

/-- The schema that a map gives, continuing one whose fields `seen` are given already. -/
def fieldsOf? (seen : List Key) (fields : Schema) : List (Tree × Tree) → Option Schema
  | [] => some fields
  | (key, value) :: entries =>
    match Selected.ofTree key with
    | .misfit => none
    | .nothing => fieldsOf? seen fields entries
    | .field key =>
      if key ∈ seen then none
      else
        match setField? key fields value with
        | some fields => fieldsOf? (key :: seen) fields entries
        | none => none

/-- The schema that a list gives by its fields in order. -/
def positional? (keys : List Key) (fields : Schema) : List Tree → Option Schema
  | [] => if keys.isEmpty then some fields else none
  | item :: items =>
    match keys with
    | [] => none
    | key :: keys =>
      match setField? key fields item with
      | some fields => positional? keys fields items
      | none => none

/-- Gives one field of a schema the value of a tree. -/
def setField? (key : Key) (fields : Schema) : Tree → Option Schema
  | .map entries =>
    match key with
    | .type => (optionalJson? (.map entries)).map ({ fields with type := · })
    | .properties =>
      (ofEntries? entries).map fun pairs =>
        { fields with properties := some (Entries.ofPairs pairs) }
    | .items =>
      (orLoose (fieldsOf? [] {} entries) (.map entries)).map fun node =>
        { fields with items := some (.single node) }
    | .reference | .title | .description | .required | .allOf => none
  | .list items =>
    match key with
    | .type => (optionalJson? (.list items)).map ({ fields with type := · })
    | .required => (texts? items).map ({ fields with required := some · })
    | .items =>
      match ofItems? items with
      | some nodes => some { fields with items := some (.tuple nodes) }
      | none =>
        (orLoose (positional? Key.all {} items) (.list items)).map fun node =>
          { fields with items := some (.single node) }
    | .allOf => (ofItems? items).map ({ fields with allOf := some · })
    | .reference | .title | .description | .properties => none
  | .null => some fields
  | .text s =>
    match key with
    | .reference => some { fields with reference := some s }
    | .title => some { fields with title := some s }
    | .description => some { fields with description := some s }
    | .type => some { fields with type := some (.text s) }
    | .items => some { fields with items := some (.single (.loose (.text s))) }
    | .required | .properties | .allOf => none
  | .bool b =>
    match key with
    | .type => some { fields with type := some (.bool b) }
    | .items => some { fields with items := some (.single (.loose (.bool b))) }
    | _ => none
  | .number n =>
    match key with
    | .type => some { fields with type := some n.toJson }
    | .items => some { fields with items := some (.single (.loose n.toJson)) }
    | _ => none
  | .tagged _ _ | .broken _ => none

end

end Node

/-- The elements that a tree describes: a tuple when it is a list of nodes. -/
def Items.ofTree? (tree : Tree) : Option (Items Node) :=
  let tuple :=
    match tree with
    | .list items => (Node.ofItems? items).map Items.tuple
    | _ => none
  match tuple with
  | some items => some items
  | none => (Node.ofTree? tree).map Items.single

end SchemaCompiler
