import SchemaCompiler.Schema.Fault
import SchemaCompiler.Schema.Node

/-!
# Documents from trees

`Document.decode` reads a document from the tree of a text, or gives the first fault in the order
of the text. The root, the definitions and the fields of a definition are held to their types;
nested nodes are lenient (`Node.ofTree?`), but the text that they stand in must be readable.

## The model

Values are walked from the front, so that a fault of the text and a fault of the content are
reported in the order in which they stand. Keys that mean nothing are passed over. Each container
that is entered takes one from `room`, the number of containers that may still be entered.

The two formats are read by the same rules except in three points: an empty value counts as a list
or map without parts in YAML only; a list counts as the fields of a definition in JSON only; and
only YAML has tags, which are dropped where a text, list or map is wanted, and keys that are no
texts.
-/

namespace SchemaCompiler

/-- The fault of a value itself. -/
def Fault.here (cause : Cause) : Fault :=
  ⟨[], cause⟩

/-- The fault of the next key of a map. -/
def Fault.atUnknown (cause : Cause) : Fault :=
  ⟨[.unknown], cause⟩

/-- Reads a part of a container. A break between the parts of the container is a fault of the
container, and any other fault is one of the part. -/
def within {α : Type} (segment : Segment) (part : Tree) (result : Except Fault α) :
    Except Fault α :=
  match part with
  | .broken ⟨wanted, _, .container⟩ => .error (.here (.unreadable wanted))
  | _ =>
    match result with
    | .ok value => .ok value
    | .error fault => .error (fault.under segment)

/-- The fault of a tree that is not what was wanted. -/
def mismatch {α : Type} (tree : Tree) (wanted : Wanted) : Except Fault α :=
  match tree with
  | .broken place => .error (.here (.unreadable place.wanted))
  | other => .error (.here (.mismatch (.ofTree other) wanted))

/-- Enters a container, which takes one from the room. -/
def enter {α : Type} (room : Nat) (result : Nat → Except Fault α) : Except Fault α :=
  match room with
  | 0 => .error (.here .tooDeep)
  | room + 1 => result room

/-- The containers that may be nested in a document. -/
def maxDepth : Format → Nat
  | .json => 127
  | .yaml => 128

/-! ### Readable trees -/

/-- The segment of a key that was read before its value. -/
def Segment.ofKey : Tree → Segment
  | .text name => key name
  | .bool b => key (if b then "true" else "false")
  | .number (.integer n) => key (toString n)
  | .number (.float x) => key (floatText .full x)
  | _ => unknown

mutual

/-- Checks that a tree can be read to its end and has no tags. -/
def Tree.checkReadable (room : Nat) : Tree → Except Fault Unit
  | .broken place => .error (.here (.unreadable place.wanted))
  | .tagged _ _ => .error (.here .taggedNode)
  | .list items =>
    match room with
    | 0 => .error (.here .tooDeep)
    | room + 1 => checkReadableItems room 0 items
  | .map entries =>
    match room with
    | 0 => .error (.here .tooDeep)
    | room + 1 => checkReadableEntries room entries
  | .null | .bool _ | .number _ | .text _ => .ok ()

/-- Checks the items of a list, the first of which has the given index. -/
def Tree.checkReadableItems (room i : Nat) : List Tree → Except Fault Unit
  | [] => .ok ()
  | item :: items =>
    match within (.index i) item (item.checkReadable room) with
    | .ok () => checkReadableItems room (i + 1) items
    | .error fault => .error fault

/-- Checks the entries of a map. -/
def Tree.checkReadableEntries (room : Nat) : List (Tree × Tree) → Except Fault Unit
  | [] => .ok ()
  | (key, value) :: entries =>
    match key.checkReadable room with
    | .error fault => .error (.atUnknown fault.cause)
    | .ok () =>
      match within (.ofKey key) value (value.checkReadable room) with
      | .ok () => checkReadableEntries room entries
      | .error fault => .error fault

end

/-- Reads a nested value leniently, once its text is known to be readable. -/
def lenient {α : Type} (choice : Choice) (shape? : Tree → Option α) (room : Nat) (tree : Tree) :
    Except Fault α :=
  match tree.checkReadable room with
  | .error fault => .error fault
  | .ok () =>
    match shape? tree with
    | some value => .ok value
    | none => .error (.here (.noShape choice))

/-! ### Values of fields -/

/-- The key of an entry. -/
def decodeKey (wanted : Wanted) (key : Tree) : Except Fault String :=
  match key.untagged with
  | .text name => .ok name
  | .broken place => .error (.atUnknown (.unreadable place.wanted))
  | other => .error (.atUnknown (.mismatch (.ofTree other) wanted))

/-- A text. -/
def decodeText (tree : Tree) : Except Fault String :=
  match tree.untagged with
  | .text s => .ok s
  | other => mismatch other .text

/-- The items of a list, the first of which has the given index. -/
def decodeItems {α : Type} (decode : Tree → Except Fault α) (i : Nat) :
    List Tree → Except Fault (List α)
  | [] => .ok []
  | item :: items => do
    let value ← within (.index i) item (decode item)
    let values ← decodeItems decode (i + 1) items
    .ok (value :: values)

/-- The entries of a map, repeated keys kept. -/
def decodeEntries {α : Type} (decode : Tree → Except Fault α) :
    List (Tree × Tree) → Except Fault (List (String × α))
  | [] => .ok []
  | (key, value) :: entries => do
    let name ← decodeKey .text key
    let value ← within (.key name) value (decode value)
    let later ← decodeEntries decode entries
    .ok ((name, value) :: later)

/-- A list. -/
def decodeList {α : Type} (format : Format) (decode : Nat → Tree → Except Fault α) (room : Nat)
    (tree : Tree) : Except Fault (List α) :=
  match tree.untagged with
  | .list items => enter room fun room => decodeItems (decode room) 0 items
  | .null => if format = .yaml then .ok [] else mismatch .null .list
  | other => mismatch other .list

/-- A map, repeated keys kept. -/
def decodeMap {α : Type} (format : Format) (decode : Nat → Tree → Except Fault α) (room : Nat)
    (tree : Tree) : Except Fault (List (String × α)) :=
  match tree.untagged with
  | .map entries => enter room fun room => decodeEntries (decode room) entries
  | .null => if format = .yaml then .ok [] else mismatch .null .map
  | other => mismatch other .map

/-- A value or nothing, for the empty value. -/
def decodeOption {α : Type} (decode : Tree → Except Fault α) : Tree → Except Fault (Option α)
  | .null => .ok none
  | tree =>
    match decode tree with
    | .ok value => .ok (some value)
    | .error fault => .error fault

mutual

/-- Any JSON value. -/
def decodeJson (room : Nat) : Tree → Except Fault Json
  | .null => .ok .null
  | .bool b => .ok (.bool b)
  | .number n => .ok n.toJson
  | .text s => .ok (.text s)
  | .tagged _ _ => .error (.here (.mismatch .tagged .json))
  | .broken place => .error (.here (.unreadable place.wanted))
  | .list items =>
    match room with
    | 0 => .error (.here .tooDeep)
    | room + 1 =>
      match decodeJsonItems room 0 items with
      | .ok values => .ok (.list values)
      | .error fault => .error fault
  | .map entries =>
    match room with
    | 0 => .error (.here .tooDeep)
    | room + 1 =>
      match decodeJsonEntries room .objectKey entries with
      | .ok pairs => .ok (.object (Entries.ofPairs pairs))
      | .error fault => .error fault

/-- The items of an array, the first of which has the given index. -/
def decodeJsonItems (room i : Nat) : List Tree → Except Fault (List Json)
  | [] => .ok []
  | item :: items =>
    match within (.index i) item (decodeJson room item) with
    | .error fault => .error fault
    | .ok value =>
      match decodeJsonItems room (i + 1) items with
      | .ok values => .ok (value :: values)
      | .error fault => .error fault

/-- The entries of an object, repeated keys kept. The first key is wanted under another name than
the later ones. -/
def decodeJsonEntries (room : Nat) (wanted : Wanted) :
    List (Tree × Tree) → Except Fault (List (String × Json))
  | [] => .ok []
  | (key, value) :: entries =>
    match decodeKey wanted key with
    | .error fault => .error fault
    | .ok name =>
      match within (.key name) value (decodeJson room value) with
      | .error fault => .error fault
      | .ok value =>
        match decodeJsonEntries room .text entries with
        | .ok pairs => .ok ((name, value) :: pairs)
        | .error fault => .error fault

end

/-! ### Definitions -/

/-- Gives one field of a definition the value of a tree. -/
def decodeField (format : Format) (room : Nat) (key : Key) (fields : Schema) (tree : Tree) :
    Except Fault Schema :=
  match key with
  | .reference => do .ok { fields with reference := ← decodeOption decodeText tree }
  | .type => do .ok { fields with type := ← decodeOption (decodeJson room) tree }
  | .title => do .ok { fields with title := ← decodeOption decodeText tree }
  | .description => do .ok { fields with description := ← decodeOption decodeText tree }
  | .required => do
    let texts ← decodeOption (decodeList format (fun _ => decodeText) room) tree
    .ok { fields with required := texts }
  | .properties => do
    let pairs ← decodeOption (decodeMap format (lenient .node Node.ofTree?) room) tree
    .ok { fields with properties := pairs.map Entries.ofPairs }
  | .items => do
    let items ← decodeOption (lenient .items Items.ofTree? room) tree
    .ok { fields with items }
  | .allOf => do
    let nodes ← decodeOption (decodeList format (lenient .node Node.ofTree?) room) tree
    .ok { fields with allOf := nodes }

/-- Passes over the value of a key that means nothing. -/
def passOver (value : Tree) : Except Fault Unit :=
  match value.skipFault? with
  | some fault => .error (.here (.unreadable fault))
  | none => .ok ()

/-- The fields that the entries of a map give, continuing a definition whose fields `seen` are
given already. -/
def decodeFields (format : Format) (room : Nat) (seen : List Key) (fields : Schema) :
    List (Tree × Tree) → Except Fault Schema
  | [] => .ok fields
  | (key, value) :: entries => do
    let name ← decodeKey .fieldKey key
    match Key.ofText? name with
    | none =>
      within (.key name) value (passOver value)
      decodeFields format room seen fields entries
    | some key =>
      if key ∈ seen then .error (.here (.duplicateField name))
      else
        let fields ← within (.key name) value (decodeField format room key fields value)
        decodeFields format room (key :: seen) fields entries

/-- Checks that a list ends after its last field. -/
def decodeListEnd : List Tree → Except Fault Unit
  | [] => .ok ()
  | .broken ⟨.endInList, _, .container⟩ :: _ => .error (.here (.unreadable .endInList))
  | .broken ⟨.trailingComma, _, .container⟩ :: _ => .error (.here (.unreadable .trailingComma))
  | _ :: _ => .error (.here (.unreadable .trailingCharacters))

/-- The definition that a list gives by its fields in order, continuing one whose first fields
are given already. -/
def decodePositional (format : Format) (room i : Nat) (fields : Schema) :
    List Key → List Tree → Except Fault Schema
  | [], items => do
    decodeListEnd items
    .ok fields
  | _ :: _, [] => .error (.here (.tooFewFields i))
  | key :: keys, item :: items => do
    let fields ← within (.index i) item (decodeField format room key fields item)
    decodePositional format room (i + 1) fields keys items

/-- A definition. -/
def decodeSchema (format : Format) (room : Nat) (tree : Tree) : Except Fault Schema :=
  match tree.untagged with
  | .map entries => enter room fun room => decodeFields format room [] {} entries
  | .list items =>
    match format with
    | .json => enter room fun room => decodePositional format room 0 {} Key.all items
    | .yaml => mismatch (.list items) .schema
  | .null =>
    match format with
    | .json => mismatch .null .schema
    | .yaml => .ok {}
  | other => mismatch other .schema

/-! ### Documents -/

/-- The definitions of a document. -/
def decodeDefinitions (format : Format) (room : Nat) (tree : Tree) : Except Fault Document := do
  let pairs ← decodeMap format (decodeSchema format) room tree
  .ok ⟨Table.ofList pairs⟩

/-- The name of the only field of a document. -/
def definitionsKey : String := "definitions"

/-- The document that the entries of a map give. The definitions may be given once, and are
already when `document` holds them. -/
def decodeRoot (format : Format) (room : Nat) (document : Option Document) :
    List (Tree × Tree) → Except Fault Document
  | [] => .ok (document.getD {})
  | (key, value) :: entries => do
    let name ← decodeKey .fieldKey key
    if name = definitionsKey then
      match document with
      | some _ => .error (.here (.duplicateField name))
      | none =>
        let document ← within (.key name) value (decodeDefinitions format room value)
        decodeRoot format room (some document) entries
    else
      within (.key name) value (passOver value)
      decodeRoot format room document entries

/-- The document that a list gives by its only field. -/
def decodeRootList (format : Format) (room : Nat) : List Tree → Except Fault Document
  | [] => .ok {}
  | item :: items => do
    let document ← within (.index 0) item (decodeDefinitions format room item)
    decodeListEnd items
    .ok document

/-- The document of a tree in a format, or the first fault of the tree. -/
def Document.decode (format : Format) (tree : Tree) : Except Fault Document :=
  match tree.untagged with
  | .map entries => enter (maxDepth format) fun room => decodeRoot format room none entries
  | .list items =>
    match format with
    | .json => enter (maxDepth format) fun room => decodeRootList format room items
    | .yaml => mismatch (.list items) .document
  | .null =>
    match format with
    | .json => mismatch .null .document
    | .yaml => .ok {}
  | other => mismatch other .document

end SchemaCompiler
