import SchemaCompiler.Yaml.Event
import SchemaCompiler.Yaml.Fault
import SchemaCompiler.Yaml.Scalar

/-!
# Trees from YAML events

`Yaml.treeOfScript` builds the tree of a document from its events. A repeated node is built again
from the events of the node that it names, so a name may stand inside the node that it names, and
then the limit on nesting ends the work. Repetitions are also limited in number.

## The model

Names of nodes are numbered: each gets the number of names known before it. A name given again gets
a new number, and since no name was added, the next new name gets that number too. A number belongs
to the node that got it last in the document, also for repetitions before that node. A repetition
of a name that is not known yet ends the events.

The keys of a map with a local tag count as named by that tag: tags on the keys themselves, and on
keys inside of such keys, are overlooked. Items, values and repeated nodes keep theirs.
-/

namespace SchemaCompiler.Yaml

/-! ### Names of nodes -/

/-- The name that an event gives to the node that it begins. -/
def Event.anchor? : Event → Option String
  | scalar properties _ _ | listStart properties | mapStart properties => properties.anchor
  | repetition _ | listEnd | mapEnd => none

/-- The names of a document. -/
structure Anchors where
  /-- The number of every name. -/
  numbers : List (String × Nat) := []
  /-- The position of the node of every number. -/
  positions : List (Nat × Nat) := []
  /-- The number that each repetition names, by its position. -/
  repeats : List (Nat × Nat) := []
  deriving Inhabited

namespace Anchors

/-- The names after the event at a position; `none` when it repeats a node without a name. -/
def next (anchors : Anchors) (position : Nat) (event : Event) : Option Anchors :=
  match event with
  | .repetition name =>
    (anchors.numbers.lookup name).map fun number =>
      { anchors with repeats := (position, number) :: anchors.repeats }
  | event =>
    match event.anchor? with
    | none => some anchors
    | some name =>
      let number := anchors.numbers.length
      some
        { anchors with
          numbers := (name, number) :: anchors.numbers.filter (·.1 ≠ name)
          positions := (number, position) :: anchors.positions }

/-- The names of a list of events, the first at the given position, and how many of the events come
before the first unknown name. -/
def ofEvents (anchors : Anchors) (position : Nat) : List Event → Anchors × Nat
  | [] => (anchors, position)
  | event :: events =>
    match anchors.next position event with
    | some anchors => ofEvents anchors (position + 1) events
    | none => (anchors, position)

/-- The position of the node that the repetition at a position names. -/
def target? (anchors : Anchors) (position : Nat) : Option Nat :=
  (anchors.repeats.lookup position).bind fun number => anchors.positions.lookup number

end Anchors

/-- A document ready to be built. -/
structure Draft where
  /-- The events up to the first unknown name. -/
  events : Array Event
  /-- The names. -/
  anchors : Anchors
  /-- The fault at the end of the events, if they do not end with the document. -/
  fault : Option Fault

/-- The draft of a script. -/
def Draft.ofScript (script : Script) : Draft :=
  let (anchors, known) := Anchors.ofEvents {} 0 script.events
  { events := (script.events.take known).toArray
    anchors
    fault :=
      if known < script.events.length then some .unknownAnchor
      else if script.ending = .unreadable then some .unreadable
      else none }

/-! ### Keys -/

/-- Whether two numbers are the same key. -/
def sameNumber : Number → Number → Bool
  | .integer m, .integer n => m == n
  | .float x, .float y => x == y || (x.isNaN && y.isNaN)
  | _, _ => false

mutual

/-- Whether two trees are the same key. The order of a map does not matter. -/
def sameKey : Tree → Tree → Bool
  | .null, .null => true
  | .bool a, .bool b => a == b
  | .number m, .number n => sameNumber m n
  | .text s, .text t => s == t
  | .list items, .list others => sameItems items others
  | .map entries, .map others =>
    entries.length == others.length && sameEntries entries others
  | .tagged tag value, .tagged other value' => tag == other && sameKey value value'
  | _, _ => false

/-- Whether two lists are the same item by item. -/
def sameItems : List Tree → List Tree → Bool
  | [], [] => true
  | item :: items, other :: others => sameKey item other && sameItems items others
  | _, _ => false

/-- Whether all entries occur among others. -/
def sameEntries : List (Tree × Tree) → List (Tree × Tree) → Bool
  | [], _ => true
  | (key, value) :: entries, others =>
    (others.any fun other => sameKey key other.1 && sameKey value other.2) &&
      sameEntries entries others

end

/-! ### Building -/

/-- How far the work has come: the position of the next event, and how often nodes were
repeated. -/
structure Walk where
  /-- The position of the next event. -/
  position : Nat := 0
  /-- How often nodes were repeated. -/
  repeats : Nat := 0
  deriving Inhabited

/-- An event without its tag. -/
def Event.untagged : Event → Event
  | scalar properties text plain => scalar { properties with tag := none } text plain
  | listStart properties => listStart { properties with tag := none }
  | mapStart properties => mapStart { properties with tag := none }
  | event => event

/-- Whether a node has a local tag with a name. -/
def Properties.hasLocalTag (properties : Properties) : Bool :=
  (properties.tag.bind Tag.localName?).isSome

/-- The value of a scalar; `none` when it has none. A local tag without a name does not count. -/
def scalarTree? (properties : Properties) (text : String) (plain : Bool) : Option Tree :=
  let bare := if plain then Scalar.plainTree? text else some (.text text)
  match properties.tag with
  | none => bare
  | some tag =>
    match tag.localName? with
    | some name => bare.map (.tagged name)
    | none => if tag.isLocal then bare else Scalar.taggedTree? tag text

/-- A collection with its local tag, if it has one with a name. -/
def withLocalTag (properties : Properties) (tree : Tree) : Tree :=
  match properties.tag.bind Tag.localName? with
  | some name => .tagged name tree
  | none => tree

/-- The segment of a key, given the event that begins it. -/
def keySegment : Option Event → Segment
  | some (.scalar _ text _) => .key text
  | _ => .unknown

mutual

/-- The node that begins at the next event. `place` is the way to it, `room` is the number of
collections that may still be entered, and `named` tells that its tag is overlooked. -/
def buildNode (draft : Draft) (room : Nat) (place : Place) (named : Bool) :
    Nat → Walk → Except Fault (Tree × Walk)
  | 0, _ => .error .tooDeep
  | bound + 1, walk =>
    match draft.events[walk.position]? with
    | none => .error (draft.fault.getD .unreadable)
    | some event =>
      let next := { walk with position := walk.position + 1 }
      match if named then event.untagged else event with
      | .repetition _ =>
        if draft.events.size * 100 < walk.repeats + 1 then .error .tooManyRepeats
        else
          match draft.anchors.target? walk.position with
          | none => .error .unknownAnchor
          | some position =>
            match buildNode draft room place.repeated false bound ⟨position, walk.repeats + 1⟩ with
            | .error fault => .error fault
            | .ok (tree, after) => .ok (tree, { next with repeats := after.repeats })
      | .scalar properties text plain =>
        match scalarTree? properties text plain with
        | some tree => .ok (tree, next)
        | none => .error .noValue
      | .listStart properties =>
        match room with
        | 0 => .error .tooDeep
        | room + 1 =>
          match buildItems draft room place 0 bound next with
          | .ok (items, walk) => .ok (withLocalTag properties (.list items), walk)
          | .error fault => .error fault
      | .mapStart properties =>
        match room with
        | 0 => .error .tooDeep
        | room + 1 =>
          match buildEntries draft room place (named || properties.hasLocalTag) [] bound next with
          | .ok (entries, walk) => .ok (withLocalTag properties (.map entries), walk)
          | .error fault => .error fault
      | .listEnd | .mapEnd => .error .unreadable

/-- The items of a list, the first of which has the given index. -/
def buildItems (draft : Draft) (room : Nat) (place : Place) (i : Nat) :
    Nat → Walk → Except Fault (List Tree × Walk)
  | 0, _ => .error .tooDeep
  | bound + 1, walk =>
    if draft.events[walk.position]? = some .listEnd then
      .ok ([], { walk with position := walk.position + 1 })
    else
      match buildNode draft room (place.under (.index i)) false bound walk with
      | .error fault => .error fault
      | .ok (item, walk) =>
        match buildItems draft room place (i + 1) bound walk with
        | .error fault => .error fault
        | .ok (items, walk) => .ok (item :: items, walk)

/-- The entries of a map, of which those with the keys `seen` are built already. The flag tells
that tags on its keys are overlooked. -/
def buildEntries (draft : Draft) (room : Nat) (place : Place) (named : Bool) (seen : List Tree) :
    Nat → Walk → Except Fault (List (Tree × Tree) × Walk)
  | 0, _ => .error .tooDeep
  | bound + 1, walk =>
    if draft.events[walk.position]? = some .mapEnd then
      .ok ([], { walk with position := walk.position + 1 })
    else
      let segment := keySegment draft.events[walk.position]?
      match buildNode draft room place named bound walk with
      | .error fault => .error fault
      | .ok (key, walk) =>
        match seen.find? (sameKey key) with
        | some first => .error (.duplicateKey place first)
        | none =>
          match buildNode draft room (place.under segment) false bound walk with
          | .error fault => .error fault
          | .ok (value, walk) =>
            match buildEntries draft room place named (key :: seen) bound walk with
            | .error fault => .error fault
            | .ok (entries, walk) => .ok ((key, value) :: entries, walk)

end

/-- How many collections may be nested. -/
def maxNesting : Nat := 128

/-- The tree of the first document of a text, which must be the only one. A text without a document
has the empty value. -/
def treeOfScript (script : Script) : Except Fault Tree :=
  if script.events.isEmpty && script.ending = .complete then .ok .null
  else
    let draft := Draft.ofScript script
    match buildNode draft maxNesting {} false (260 * (draft.events.size + 3)) {} with
    | .error fault => .error fault
    | .ok (tree, _) =>
      match draft.fault with
      | some fault => .error fault
      | none => if script.ending = .followed then .error .severalDocuments else .ok tree

end SchemaCompiler.Yaml
