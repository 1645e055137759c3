import SchemaCompiler.Yaml.TokenStream

/-!
# The events of a YAML document

`Script.ofTokens` groups tokens by the grammar of the language: the nodes of the first document of
a text in order, each collection between its start and its end. A value that is left out where the
grammar wants one is an empty scalar.

## The model

Every reader takes the tokens that are left and gives the events it read together with the tokens
that are left then, or with `none` when the tokens break the grammar or end too early. The events
before such a place are kept. The recursion is bounded by the number of tokens.
-/

namespace SchemaCompiler.Yaml

/-- What may stand in front of a node: a name for it and a tag. -/
structure Properties where
  /-- The name under which the node can be repeated. -/
  anchor : Option String := none
  /-- The tag with its handle written out. -/
  tag : Option Tag := none
  deriving DecidableEq, Repr, Inhabited

/-- An event of a document. -/
inductive Event where
  /-- A repeated node. -/
  | repetition (name : String)
  /-- A scalar; the flag tells whether it stands without quotes. -/
  | scalar (properties : Properties) (text : String) (plain : Bool)
  /-- The start of a list. -/
  | listStart (properties : Properties)
  /-- The end of a list. -/
  | listEnd
  /-- The start of a map. -/
  | mapStart (properties : Properties)
  /-- The end of a map. -/
  | mapEnd
  deriving DecidableEq, Repr, Inhabited

/-- The scalar that stands for a value left out. -/
def Event.empty : Event :=
  .scalar {} "" true

/-- Events and the tokens that are left, if reading can go on. -/
abbrev EventReading := List Event × Option (List Token)

namespace EventReading

/-- A reading that breaks off. -/
def stopped : EventReading := ([], none)

/-- An event in front of a reading. -/
def cons (event : Event) (reading : EventReading) : EventReading :=
  (event :: reading.1, reading.2)

/-- A reading and what is read from the tokens it leaves. -/
def andThen (reading : EventReading) (next : List Token → EventReading) : EventReading :=
  match reading with
  | (events, none) => (events, none)
  | (events, some rest) =>
    let (later, rest) := next rest
    (events ++ later, rest)

end EventReading

/-! ### Properties -/

/-- The meanings of tag handles. -/
abbrev Handles := List (String × Tag)

/-- The handles that every document has. -/
def Handles.standard : Handles :=
  [("!", .lone), ("!!", .standard "")]

/-- A tag with its handle written out; `none` when the handle has no meaning. -/
def resolveTag (handles : Handles) (handle : String) (suffix : Tag) : Option Tag :=
  if handle.isEmpty then some suffix
  else (handles.lookup handle).map (·.append suffix)

/-- The properties in front of a node, in either order. The outer `none` stands for a handle
without a meaning. -/
def readProperties (handles : Handles) : List Token → Option (Properties × List Token)
  | .anchor anchor :: .tag handle suffix :: rest =>
    (resolveTag handles handle suffix).map fun tag => (⟨some anchor, some tag⟩, rest)
  | .anchor anchor :: rest => some (⟨some anchor, none⟩, rest)
  | .tag handle suffix :: .anchor anchor :: rest =>
    (resolveTag handles handle suffix).map fun tag => (⟨some anchor, some tag⟩, rest)
  | .tag handle suffix :: rest =>
    (resolveTag handles handle suffix).map fun tag => (⟨none, some tag⟩, rest)
  | rest => some ({}, rest)

/-! ### Nodes -/

/-- Where a node stands, which decides what forms it may take. -/
inductive Position where
  /-- Inside a flow collection. -/
  | flow
  /-- In a block. -/
  | block
  /-- In a block where the items of a list need not be indented. -/
  | blockValue
  deriving DecidableEq, Repr

/-- Whether a value in a block is left out before a token. -/
def isLeftOutInMap : Token → Bool
  | .key | .value | .blockEnd => true
  | _ => false

mutual

/-- A node. -/
def readNode (handles : Handles) (position : Position) : Nat → List Token → EventReading
  | 0, _ => .stopped
  | _ + 1, .repetition name :: rest => ([.repetition name], some rest)
  | bound + 1, tokens =>
    match readProperties handles tokens with
    | none => .stopped
    | some (properties, rest) =>
      match rest with
      | [] => .stopped
      | .scalar text plain :: rest => ([.scalar properties text plain], some rest)
      | .flowListStart :: rest =>
        .cons (.listStart properties) (readFlowItems handles true bound rest)
      | .flowMapStart :: rest =>
        .cons (.mapStart properties) (readFlowEntries handles true bound rest)
      | token :: rest =>
        if token = .entry && position = .blockValue then
          .cons (.listStart properties) (readFlatItems handles bound (token :: rest))
        else if token = .blockListStart && position ≠ .flow then
          .cons (.listStart properties) (readItems handles bound rest)
        else if token = .blockMapStart && position ≠ .flow then
          .cons (.mapStart properties) (readEntries handles bound rest)
        else if properties = {} then .stopped
        else ([.scalar properties "" true], some (token :: rest))

/-- The items of a block list and its end. -/
def readItems (handles : Handles) : Nat → List Token → EventReading
  | 0, _ => .stopped
  | _ + 1, .blockEnd :: rest => ([.listEnd], some rest)
  | bound + 1, .entry :: rest =>
    match rest with
    | [] => .stopped
    | token :: _ =>
      if token = .entry || token = .blockEnd then .cons .empty (readItems handles bound rest)
      else (readNode handles .block bound rest).andThen (readItems handles bound)
  | _ + 1, _ => .stopped

/-- The items of a block list that is not indented, and its end. -/
def readFlatItems (handles : Handles) : Nat → List Token → EventReading
  | 0, _ => .stopped
  | _ + 1, [] => .stopped
  | bound + 1, .entry :: rest =>
    match rest with
    | [] => .stopped
    | token :: _ =>
      if token = .entry || isLeftOutInMap token then .cons .empty (readFlatItems handles bound rest)
      else (readNode handles .block bound rest).andThen (readFlatItems handles bound)
  | _ + 1, rest => ([.listEnd], some rest)

/-- The entries of a block map and its end. -/
def readEntries (handles : Handles) : Nat → List Token → EventReading
  | 0, _ => .stopped
  | _ + 1, .blockEnd :: rest => ([.mapEnd], some rest)
  | bound + 1, .key :: rest =>
    match rest with
    | [] => .stopped
    | token :: _ =>
      if isLeftOutInMap token then .cons .empty (readEntryValue handles bound rest)
      else (readNode handles .blockValue bound rest).andThen (readEntryValue handles bound)
  | _ + 1, _ => .stopped

/-- The value of an entry of a block map and what follows it. -/
def readEntryValue (handles : Handles) : Nat → List Token → EventReading
  | 0, _ => .stopped
  | _ + 1, [] => .stopped
  | bound + 1, .value :: rest =>
    match rest with
    | [] => .stopped
    | token :: _ =>
      if isLeftOutInMap token then .cons .empty (readEntries handles bound rest)
      else (readNode handles .blockValue bound rest).andThen (readEntries handles bound)
  | bound + 1, rest => .cons .empty (readEntries handles bound rest)

/-- The items of a flow list and its end. An item may be a single entry of a map. -/
def readFlowItems (handles : Handles) (first : Bool) : Nat → List Token → EventReading
  | 0, _ => .stopped
  | _ + 1, .flowListEnd :: rest => ([.listEnd], some rest)
  | bound + 1, tokens =>
    let item :=
      if first then some tokens
      else
        match tokens with
        | .comma :: rest => some rest
        | _ => none
    match item with
    | none | some [] => .stopped
    | some (.flowListEnd :: rest) => ([.listEnd], some rest)
    | some (.key :: rest) => .cons (.mapStart {}) (readPair handles bound rest)
    | some rest =>
      (readNode handles .flow bound rest).andThen (readFlowItems handles false bound)

/-- An item of a flow list that is a single entry of a map, and what follows it. A key that is
left out takes the token in its place with it. -/
def readPair (handles : Handles) : Nat → List Token → EventReading
  | 0, _ => .stopped
  | _ + 1, [] => .stopped
  | bound + 1, token :: rest =>
    if token = .value || token = .comma || token = .flowListEnd then
      .cons .empty (readPairValue handles bound rest)
    else (readNode handles .flow bound (token :: rest)).andThen (readPairValue handles bound)

/-- The value of a single entry in a flow list and what follows it. -/
def readPairValue (handles : Handles) : Nat → List Token → EventReading
  | 0, _ => .stopped
  | _ + 1, [] => .stopped
  | bound + 1, .value :: rest =>
    match rest with
    | [] => .stopped
    | token :: _ =>
      if token = .comma || token = .flowListEnd then
        .cons .empty (.cons .mapEnd (readFlowItems handles false bound rest))
      else (readNode handles .flow bound rest).andThen (readPairEnd handles bound)
  | bound + 1, rest => .cons .empty (.cons .mapEnd (readFlowItems handles false bound rest))

/-- The end of a single entry in a flow list and what follows it. -/
def readPairEnd (handles : Handles) : Nat → List Token → EventReading
  | 0, _ => .stopped
  | _ + 1, [] => .stopped
  | bound + 1, rest => .cons .mapEnd (readFlowItems handles false bound rest)

/-- The entries of a flow map and its end. An entry may be a key alone. -/
def readFlowEntries (handles : Handles) (first : Bool) : Nat → List Token → EventReading
  | 0, _ => .stopped
  | _ + 1, .flowMapEnd :: rest => ([.mapEnd], some rest)
  | bound + 1, tokens =>
    let entry :=
      if first then some tokens
      else
        match tokens with
        | .comma :: rest => some rest
        | _ => none
    match entry with
    | none | some [] => .stopped
    | some (.flowMapEnd :: rest) => ([.mapEnd], some rest)
    | some (.key :: rest) =>
      match rest with
      | [] => .stopped
      | token :: _ =>
        if token = .value || token = .comma || token = .flowMapEnd then
          .cons .empty (readFlowValue handles bound rest)
        else (readNode handles .flow bound rest).andThen (readFlowValue handles bound)
    | some rest => (readNode handles .flow bound rest).andThen (readLoneKey handles bound)

/-- The value of an entry of a flow map and what follows it. -/
def readFlowValue (handles : Handles) : Nat → List Token → EventReading
  | 0, _ => .stopped
  | _ + 1, [] => .stopped
  | bound + 1, .value :: rest =>
    match rest with
    | [] => .stopped
    | token :: _ =>
      if token = .comma || token = .flowMapEnd then
        .cons .empty (readFlowEntries handles false bound rest)
      else (readNode handles .flow bound rest).andThen (readFlowEntries handles false bound)
  | bound + 1, rest => .cons .empty (readFlowEntries handles false bound rest)

/-- The value left out after a lone key of a flow map, and what follows it. -/
def readLoneKey (handles : Handles) : Nat → List Token → EventReading
  | 0, _ => .stopped
  | _ + 1, [] => .stopped
  | bound + 1, rest => .cons .empty (readFlowEntries handles false bound rest)

end

/-! ### Documents -/

/-- The directives in front of a document. A version may be given once and must be 1.1 or 1.2; a
handle may be given once. -/
def readDirectives (version : Bool) (handles : Handles) :
    List Token → Option (Handles × List Token)
  | .version major minor :: rest =>
    if version || major ≠ 1 || (minor ≠ 1 && minor ≠ 2) then none
    else readDirectives true handles rest
  | .tagHandle handle meaning :: rest =>
    if (handles.lookup handle).isSome then none
    else readDirectives version (handles ++ [(handle, meaning)]) rest
  | rest => some (handles ++ Handles.standard, rest)

/-- How the events of the first document end. -/
inductive Ending where
  /-- With the document, which is all of the text. -/
  | complete
  /-- With the document, but the text goes on. -/
  | followed
  /-- Before the document does, where the text breaks a rule. -/
  | unreadable
  deriving DecidableEq, Repr, Inhabited

/-- The events of the first document of a text. -/
structure Script where
  /-- The events in order; there are none when the text holds no document. -/
  events : List Event
  /-- How they end. -/
  ending : Ending
  deriving Inhabited

namespace Script

/-- Whether a text that has more tokens holds nothing more than the marks after a document. -/
def isOver : List Token → Bool
  | .documentEnd :: rest => isOver rest
  | [.streamEnd] => true
  | _ => false

/-- The end of the first document, given its events and the tokens after them. -/
def ofReading (reading : EventReading) : Script :=
  match reading with
  | (events, none) | (events, some []) => ⟨events, .unreadable⟩
  | (events, some rest) => ⟨events, if isOver rest then .complete else .followed⟩

/-- The content of a document after its marker, which may be empty. -/
def readContent (handles : Handles) (bound : Nat) (tokens : List Token) : EventReading :=
  match tokens with
  | [] => .stopped
  | .version .. :: _ | .tagHandle .. :: _ | .documentStart :: _ | .documentEnd :: _
  | .streamEnd :: _ => ([.empty], some tokens)
  | _ => readNode handles .block bound tokens

/-- The events of the first document of a list of tokens. -/
def ofTokens (tokens : List Token) : Script :=
  let bound := 4 * tokens.length + 4
  match tokens.drop 1 with
  | [] => ⟨[], .unreadable⟩
  | [.streamEnd] => ⟨[], .complete⟩
  | .version a b :: rest => explicit bound (.version a b :: rest)
  | .tagHandle a b :: rest => explicit bound (.tagHandle a b :: rest)
  | .documentStart :: rest => explicit bound (.documentStart :: rest)
  | rest => ofReading (readNode Handles.standard .block bound rest)
where
  /-- A document that begins with directives or a marker. -/
  explicit (bound : Nat) (tokens : List Token) : Script :=
    match readDirectives false [] tokens with
    | some (handles, .documentStart :: rest) => ofReading (readContent handles bound rest)
    | _ => ⟨[], .unreadable⟩

/-- The events of the first document of a text. -/
def ofText (source : String) : Script :=
  ofTokens (Released.ofText source).tokens

end Script

end SchemaCompiler.Yaml
