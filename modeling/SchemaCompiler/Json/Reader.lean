import SchemaCompiler.Json.Number
import SchemaCompiler.Json.Text

/-!
# Reading JSON

`Tree.ofJson` reads the value at the front of a JSON text into a tree and never looks at what
follows the value. It reads as far as the text can be read: at the first fault that no reader could
go past, the tree ends in a broken node.

## The model

A reader takes the characters that are left and gives what it read together with the characters
that are left then, or with `none` when it had to stop. `nextItem` and `nextEntry` decide what
stands between the parts of an array and of an object: another part, the closing bracket, or a
break. The bound on the depth of recursion is twice the length of the text, which no text reaches.
-/

namespace SchemaCompiler.Json

/-- White space between the tokens of a JSON text. -/
def isSpace (c : Char) : Bool :=
  c == ' ' || c == '\n' || c == '\t' || c == '\r'

/-- The text after its leading white space. -/
def skipSpace (cs : List Char) : List Char :=
  cs.dropWhile isSpace

/-- What stands at a place between the parts of a container. -/
inductive Next where
  /-- Another part, which starts here. -/
  | part (rest : List Char)
  /-- The closing bracket, before `rest`. -/
  | closed (rest : List Char)
  /-- Neither. -/
  | broken (place : Break)

/-- What stands before an item of an array: nothing before the first one, a comma before every
other one. -/
def nextItem (first : Bool) (cs : List Char) : Next :=
  match skipSpace cs with
  | [] => .broken (.inContainer .endInList)
  | ']' :: rest => .closed rest
  | c :: rest =>
    if first then .part (c :: rest)
    else if c = ',' then
      match skipSpace rest with
      | [] => .broken (.inContainer .endInValue)
      | ']' :: _ => .broken ⟨.trailingComma, some .expectedValue, .container⟩
      | rest => .part rest
    else .broken (.inContainer .expectedItemEnd)

/-- What stands before a key: the quote that opens it after nothing, for the first one, or after a
comma. The rest starts behind the quote. -/
def nextEntry (first : Bool) (cs : List Char) : Next :=
  match skipSpace cs with
  | [] => .broken (.atValue .endInObject)
  | '}' :: rest => .closed rest
  | c :: rest =>
    if first then
      if c = '"' then .part rest else .broken (.atValue .keyNotText)
    else if c = ',' then
      match skipSpace rest with
      | [] => .broken ⟨.endInValue, some .endInObject, .value⟩
      | '"' :: rest => .part rest
      | '}' :: _ => .broken ⟨.trailingComma, some .keyNotText, .value⟩
      | _ => .broken (.atValue .keyNotText)
    else .broken (.atValue .expectedEntryEnd)

/-- The colon between a key and its value. -/
def colon (cs : List Char) : Except Break (List Char) :=
  match skipSpace cs with
  | [] => .error (.inContainer .endInObject)
  | ':' :: rest => .ok rest
  | _ => .error (.inContainer .expectedColon)

/-- A tree and what is left of the text, if reading can go on. -/
abbrev Reading := Tree × Option (List Char)

/-- The rest of a keyword whose first letter has been read. -/
def readKeyword (value : Tree) : List Char → List Char → Reading
  | [], rest => (value, some rest)
  | _ :: _, [] => (.broken (.atValue .endInValue), none)
  | c :: letters, d :: rest =>
    if c = d then readKeyword value letters rest
    else (.broken (.atValue .expectedKeyword), none)

/-- A text after its opening quote. -/
def readText (cs : List Char) : Reading :=
  match decodeText cs with
  | .ok (chars, rest) => (.text (.ofList chars), some rest)
  | .error wanted =>
    match skipText cs with
    | .ok rest => (.broken ⟨wanted, none, .value⟩, some rest)
    | .error skipped => (.broken ⟨wanted, some skipped, .value⟩, none)

/-- A number. -/
def readNumber (cs : List Char) : Reading :=
  match NumberText.read cs with
  | .error wanted => (.broken ⟨wanted, some .invalidNumber, .value⟩, none)
  | .ok (parts, rest) =>
    match parts.value? with
    | some value => (.number value, some rest)
    | none => (.broken ⟨.numberOutOfRange, none, .value⟩, some rest)

mutual

/-- The value at the front of a text. -/
def readValue : Nat → List Char → Reading
  | 0, _ => (.broken (.atValue .endInValue), none)
  | bound + 1, cs =>
    match skipSpace cs with
    | [] => (.broken (.atValue .endInValue), none)
    | c :: rest =>
      if c = '"' then readText rest
      else if c = '[' then
        let (items, rest) := readItems bound true rest
        (.list items, rest)
      else if c = '\x7b' then
        let (entries, rest) := readEntries bound true rest
        (.map entries, rest)
      else if c = 'n' then readKeyword .null ['u', 'l', 'l'] rest
      else if c = 't' then readKeyword (.bool true) ['r', 'u', 'e'] rest
      else if c = 'f' then readKeyword (.bool false) ['a', 'l', 's', 'e'] rest
      else if c = '-' || c.isDigit then readNumber (c :: rest)
      else (.broken (.atValue .expectedValue), none)

/-- The items of an array up to its closing bracket. -/
def readItems : Nat → Bool → List Char → List Tree × Option (List Char)
  | 0, _, _ => ([.broken (.inContainer .endInList)], none)
  | bound + 1, first, cs =>
    match nextItem first cs with
    | .closed rest => ([], some rest)
    | .broken place => ([.broken place], none)
    | .part rest =>
      match readValue bound rest with
      | (item, none) => ([item], none)
      | (item, some rest) =>
        let (items, rest) := readItems bound false rest
        (item :: items, rest)

/-- The entries of an object up to its closing brace. -/
def readEntries : Nat → Bool → List Char → List (Tree × Tree) × Option (List Char)
  | 0, _, _ => ([(.broken (.atValue .endInObject), .null)], none)
  | bound + 1, first, cs =>
    match nextEntry first cs with
    | .closed rest => ([], some rest)
    | .broken place => ([(.broken place, .null)], none)
    | .part rest =>
      match readText rest with
      | (key, none) => ([(key, .null)], none)
      | (key, some rest) =>
        match colon rest with
        | .error place => ([(key, .broken place)], none)
        | .ok rest =>
          match readValue bound rest with
          | (value, none) => ([(key, value)], none)
          | (value, some rest) =>
            let (entries, rest) := readEntries bound false rest
            ((key, value) :: entries, rest)

end

/-- The value at the front of a text, given as its characters, and what is left. -/
def read (cs : List Char) : Reading :=
  readValue (2 * cs.length + 2) cs

end SchemaCompiler.Json

namespace SchemaCompiler

/-- The tree of the value at the front of a JSON text. -/
def Tree.ofJson (source : String) : Tree :=
  (Json.read source.toList).1

end SchemaCompiler
