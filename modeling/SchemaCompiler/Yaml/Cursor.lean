/-!
# Places in a YAML text

Character classes of YAML and the `Cursor`, a place in a text: the characters that are left together
with the number of characters before it, its line and its column. Tokens of YAML depend on columns,
so every reader of the text goes through a cursor.
-/

namespace SchemaCompiler.Yaml

/-! ### Character classes -/

/-- A character that a text may contain. -/
def isAllowed (c : Char) : Bool :=
  let n := c.toNat
  n == 0x9 || n == 0xA || n == 0xD || (0x20 ≤ n && n ≤ 0x7E) || n == 0x85 ||
    (0xA0 ≤ n && n ≤ 0xD7FF) || (0xE000 ≤ n && n ≤ 0xFFFD) || 0x10000 ≤ n

/-- A space or a tab. -/
def isBlank (c : Char) : Bool :=
  c == ' ' || c == '\t'

/-- A character that ends a line. -/
def isBreak (c : Char) : Bool :=
  c == '\r' || c == '\n' || c == '\x85' || c == '\u2028' || c == '\u2029'

/-- A space, a tab or a line break. -/
def isGap (c : Char) : Bool :=
  isBlank c || isBreak c

/-- A character of a word: a letter, a digit, a hyphen or an underscore. -/
def isWord (c : Char) : Bool :=
  c.isAlphanum || c == '-' || c == '_'

/-- A bracket, brace or comma, which has a meaning in flow collections. -/
def isFlowMark (c : Char) : Bool :=
  c == ',' || c == '[' || c == ']' || c == '\x7b' || c == '\x7d'

/-- Whether a text begins with a gap or is at its end. -/
def atGap : List Char → Bool
  | [] => true
  | c :: _ => isGap c

/-- Whether a text begins with a line break or is at its end. -/
def atLineEnd : List Char → Bool
  | [] => true
  | c :: _ => isBreak c

/-! ### Cursors -/

/-- A place in a text. -/
structure Cursor where
  /-- The characters that are left. -/
  rest : List Char
  /-- The number of characters of the whole text. -/
  size : Nat
  /-- The number of characters before this place. -/
  index : Nat := 0
  /-- The number of line breaks before this place. -/
  line : Nat := 0
  /-- The number of characters before this place in its line. -/
  column : Nat := 0
  deriving Inhabited

namespace Cursor

/-- The start of a text. -/
def ofText (text : List Char) : Cursor :=
  { rest := text, size := text.length }

/-- A bound on the steps that a reader can take from here, one more than the characters left. -/
def steps (cursor : Cursor) : Nat :=
  cursor.size - cursor.index + 1

/-- The cursor after `n` characters, none of them a line break. -/
def advance (cursor : Cursor) (n : Nat) : Cursor :=
  { cursor with
    rest := cursor.rest.drop n
    index := cursor.index + n
    column := cursor.column + n }

/-- The cursor after the longest run of characters of a class that holds no line break. -/
def skipWhile (cursor : Cursor) (p : Char → Bool) : Cursor :=
  cursor.advance (cursor.rest.takeWhile p).length

/-- The longest run of characters of a class that holds no line break, and the cursor after it. -/
def takeWhile (cursor : Cursor) (p : Char → Bool) : List Char × Cursor :=
  let taken := cursor.rest.takeWhile p
  (taken, cursor.advance taken.length)

/-- The cursor at the start of the next line, when it stands at a line break. A carriage return
followed by a line feed is one break. -/
def nextLine (cursor : Cursor) : Cursor :=
  match cursor.rest with
  | '\r' :: '\n' :: rest =>
    { cursor with rest, index := cursor.index + 2, line := cursor.line + 1, column := 0 }
  | _ :: rest =>
    { cursor with rest, index := cursor.index + 1, line := cursor.line + 1, column := 0 }
  | [] => cursor

/-- What a line break at the cursor stands for in a scalar, and the cursor after it. Most breaks
stand for a line feed; the separators of lines and paragraphs stand for themselves. -/
def takeBreak? (cursor : Cursor) : Option (Char × Cursor) :=
  match cursor.rest with
  | c :: _ =>
    if c == '\u2028' || c == '\u2029' then some (c, cursor.nextLine)
    else if isBreak c then some ('\n', cursor.nextLine)
    else none
  | [] => none

/-- The next character. -/
def peek? (cursor : Cursor) : Option Char :=
  cursor.rest.head?

/-- Whether the next character is a given one. -/
def isAt (cursor : Cursor) (c : Char) : Bool :=
  cursor.rest.head? == some c

/-- Whether a document marker stands here: three equal characters at the start of a line, with
a gap after them. -/
def isAtMarker (cursor : Cursor) (mark : Char) : Bool :=
  cursor.column == 0 &&
    match cursor.rest with
    | a :: b :: c :: rest => a == mark && b == mark && c == mark && atGap rest
    | _ => false

/-- Whether any document marker stands here. -/
def isAtAnyMarker (cursor : Cursor) : Bool :=
  cursor.isAtMarker '-' || cursor.isAtMarker '.'

/-- The cursor after a comment, if one starts here. -/
def skipComment (cursor : Cursor) : Cursor :=
  if cursor.isAt '#' then cursor.skipWhile (!isBreak ·) else cursor

end Cursor

end SchemaCompiler.Yaml
