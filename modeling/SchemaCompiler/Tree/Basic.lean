import SchemaCompiler.Json.Basic

/-!
# Document trees

A `Tree` is what a text in either format says before anybody asks for a schema: scalars, lists,
maps whose keys are trees, and values that carry a tag.

A JSON text is read as far as it goes. Where it cannot be read on, the tree holds a `broken` node,
and nothing of the text after that place is in the tree. So whoever walks the tree in the order
of the text meets the faults of the text and the faults of its content in that order, and a text
whose end is broken still has a beginning.

## The model

A fault has two wordings. `wanted` is what is wrong when the value at this place is asked for,
and `skipped` is what is wrong when the value is passed over because nothing needs it: a value
that is passed over is held only to the bracket structure and the grammar of scalars, so some
faults do not count there and others are noticed in another order.
-/

namespace SchemaCompiler

/-- What can be wrong with a JSON text at one place. -/
inductive SyntaxFault where
  /-- The text ends where a value should stand. -/
  | endInValue
  /-- The text ends inside an object. -/
  | endInObject
  /-- The text ends inside an array. -/
  | endInList
  /-- The text ends between quotes. -/
  | endInText
  /-- No value starts here. -/
  | expectedValue
  /-- A keyword is misspelt. -/
  | expectedKeyword
  /-- No colon follows a key. -/
  | expectedColon
  /-- Neither a comma nor a closing brace follows an entry. -/
  | expectedEntryEnd
  /-- Neither a comma nor a closing bracket follows an item. -/
  | expectedItemEnd
  /-- A key is not a text. -/
  | keyNotText
  /-- A comma stands before a closing bracket. -/
  | trailingComma
  /-- There is more where an array should end. -/
  | trailingCharacters
  /-- A number breaks the grammar of numbers. -/
  | invalidNumber
  /-- A number is too large for a floating-point number. -/
  | numberOutOfRange
  /-- A backslash begins no escape. -/
  | invalidEscape
  /-- The first half of a surrogate pair stands alone. -/
  | unfinishedPair
  /-- The second half of a surrogate pair is missing or stands alone. -/
  | loneSurrogate
  /-- A control character stands between quotes. -/
  | controlCharacter
  deriving DecidableEq, Repr, Inhabited

/-- The wording of a fault. -/
def SyntaxFault.message : SyntaxFault → String
  | endInValue => "EOF while parsing a value"
  | endInObject => "EOF while parsing an object"
  | endInList => "EOF while parsing a list"
  | endInText => "EOF while parsing a string"
  | expectedValue => "expected value"
  | expectedKeyword => "expected ident"
  | expectedColon => "expected `:`"
  | expectedEntryEnd => "expected `,` or `\x7d`"
  | expectedItemEnd => "expected `,` or `]`"
  | keyNotText => "key must be a string"
  | trailingComma => "trailing comma"
  | trailingCharacters => "trailing characters"
  | invalidNumber => "invalid number"
  | numberOutOfRange => "number out of range"
  | invalidEscape => "invalid escape"
  | unfinishedPair => "unexpected end of hex escape"
  | loneSurrogate => "lone leading surrogate in hex escape"
  | controlCharacter => "control character (\\u0000-\\u001F) found while parsing a string"

/-- Where a fault belongs. -/
inductive Site where
  /-- To the value whose place the broken node takes. -/
  | value
  /-- To the list or map that holds the broken node. -/
  | container
  deriving DecidableEq, Repr

/-- A place where a text cannot be read. -/
structure Break where
  /-- What is wrong when the value is asked for. -/
  wanted : SyntaxFault
  /-- What is wrong when the value is passed over, if anything. -/
  skipped : Option SyntaxFault
  /-- Whether the fault belongs to the value or to its container. -/
  site : Site
  deriving DecidableEq, Repr

/-- A break at a value that is the same fault however the value is used. -/
def Break.atValue (fault : SyntaxFault) : Break :=
  ⟨fault, some fault, .value⟩

/-- A break between the parts of a container that is the same fault however it is used. -/
def Break.inContainer (fault : SyntaxFault) : Break :=
  ⟨fault, some fault, .container⟩

/-- What a text says, before anybody asks for a schema. -/
inductive Tree where
  /-- The empty value. -/
  | null
  /-- A truth value. -/
  | bool (b : Bool)
  /-- A number. -/
  | number (n : Number)
  /-- A text. -/
  | text (s : String)
  /-- A list. -/
  | list (items : List Tree)
  /-- A map, with its entries in the order of the text and repeated keys kept. -/
  | map (entries : List (Tree × Tree))
  /-- A value with a tag. -/
  | tagged (tag : String) (value : Tree)
  /-- A place where the text cannot be read. -/
  | broken (place : Break)
  deriving Inhabited

namespace Tree

/-- The value without its tags. -/
def untagged : Tree → Tree
  | tagged _ value => value.untagged
  | other => other

mutual

/-- The first fault of a value that is passed over. -/
def skipFault? : Tree → Option SyntaxFault
  | .list items => skipFaultItems? items
  | .map entries => skipFaultEntries? entries
  | .tagged _ value => value.skipFault?
  | .broken b => b.skipped
  | .null | .bool _ | .number _ | .text _ => none

/-- The first fault of a list of values that are passed over. -/
def skipFaultItems? : List Tree → Option SyntaxFault
  | [] => none
  | item :: items => item.skipFault?.or (skipFaultItems? items)

/-- The first fault of entries that are passed over. -/
def skipFaultEntries? : List (Tree × Tree) → Option SyntaxFault
  | [] => none
  | (key, value) :: entries =>
    (key.skipFault?.or value.skipFault?).or (skipFaultEntries? entries)

end

end Tree

end SchemaCompiler
