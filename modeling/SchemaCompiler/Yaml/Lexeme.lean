import SchemaCompiler.Yaml.Cursor
import SchemaCompiler.Yaml.Token

/-!
# Words and scalars of YAML

Readers for the tokens that hold text: anchors, tags, directives and the five kinds of scalars.
Each takes the cursor at the first character of the token and gives the token with the cursor
after it, or `none` when the text breaks a rule of the language there.

## The model

Lines of a scalar are folded. `Gap` is a run of blanks and line breaks inside a scalar; a gap
without a break stands for its blanks, one with a single break for a space, and one with more
breaks for all but the first. In a block scalar the width of the indentation is either given or
told by the first line that is not empty.
-/

namespace SchemaCompiler.Yaml

/-- A token and the place after it. -/
abbrev Lexeme := Token × Cursor

/-! ### Gaps -/

/-- A run of blanks and line breaks inside a scalar. -/
structure Gap where
  /-- The blanks before the first break. -/
  blanks : List Char := []
  /-- Whether a break was passed. -/
  broken : Bool := false
  /-- What the first break stands for, unless it was escaped. -/
  first : Option Char := none
  /-- What the later breaks stand for. -/
  later : List Char := []

/-- What a gap stands for in the text of a scalar. -/
def Gap.text (gap : Gap) : List Char :=
  if gap.broken then
    match gap.first with
    | some '\n' => if gap.later.isEmpty then [' '] else gap.later
    | first => first.toList ++ gap.later
  else gap.blanks

/-- The gap at a cursor, continuing one that has begun, and the cursor after it. Tabs may not
stand in the indentation of a line, which `indent` gives where it matters. The bound is on the
number of characters of the gap. -/
def readGap (indent : Option Int) : Nat → Gap → Cursor → Option (Gap × Cursor)
  | 0, gap, cursor => some (gap, cursor)
  | bound + 1, gap, cursor =>
    match cursor.peek? with
    | none => some (gap, cursor)
    | some c =>
      if isBlank c then
        if gap.broken then
          if c == '\t' && indent.any fun width => (cursor.column : Int) < width then none
          else readGap indent bound gap (cursor.advance 1)
        else readGap indent bound { gap with blanks := gap.blanks ++ [c] } (cursor.advance 1)
      else
        match cursor.takeBreak? with
        | none => some (gap, cursor)
        | some (mark, next) =>
          if gap.broken then readGap indent bound { gap with later := gap.later ++ [mark] } next
          else
            readGap indent bound { gap with blanks := [], broken := true, first := some mark } next

/-! ### Anchors and tags -/

/-- The characters that may follow the name of an anchor. -/
def endsAnchor : List Char → Bool
  | [] => true
  | c :: _ => isGap c || c == '?' || c == ':' || c == ',' || c == ']' || c == '\x7d' || c == '%' ||
      c == '@' || c == '`'

/-- The name after an anchor or alias mark. -/
def readAnchor (cursor : Cursor) : Option (String × Cursor) :=
  let (name, next) := (cursor.advance 1).takeWhile isWord
  if name.isEmpty || !endsAnchor next.rest then none else some (.ofList name, next)

/-- The value of a hexadecimal digit. -/
def hexValue? (c : Char) : Option Nat :=
  if '0' ≤ c && c ≤ '9' then some (c.toNat - '0'.toNat)
  else if 'a' ≤ c && c ≤ 'f' then some (c.toNat - 'a'.toNat + 10)
  else if 'A' ≤ c && c ≤ 'F' then some (c.toNat - 'A'.toNat + 10)
  else none

/-- An octet written with a percent sign at the front of a text. -/
def percentOctet? : List Char → Option Nat
  | '%' :: a :: b :: _ =>
    match hexValue? a, hexValue? b with
    | some a, some b => some (a * 16 + b)
    | _, _ => none
  | _ => none

/-- How many octets a character has whose first octet is given. -/
def widthOfOctet? (octet : Nat) : Option Nat :=
  if octet < 0x80 then some 1
  else if 0xC0 ≤ octet && octet < 0xE0 then some 2
  else if 0xE0 ≤ octet && octet < 0xF0 then some 3
  else if 0xF0 ≤ octet && octet < 0xF8 then some 4
  else none

/-- The given number of later octets of a character that is written with percent signs. -/
def readLaterOctets : Nat → Cursor → Option (List UInt8 × Cursor)
  | 0, cursor => some ([], cursor)
  | more + 1, cursor =>
    match percentOctet? cursor.rest with
    | some octet =>
      if 0x80 ≤ octet && octet < 0xC0 then
        (readLaterOctets more (cursor.advance 3)).map fun (octets, cursor) =>
          (octet.toUInt8 :: octets, cursor)
      else none
    | none => none

/-- The octets of a character that is written with percent signs. Only the shape of the first and
the later octets is looked at, so they need not be the octets of any character. -/
def readPercent (cursor : Cursor) : Option (List UInt8 × Cursor) :=
  match percentOctet? cursor.rest with
  | none => none
  | some octet =>
    match widthOfOctet? octet with
    | none => none
    | some width =>
      (readLaterOctets (width - 1) (cursor.advance 3)).map fun (octets, cursor) =>
        (octet.toUInt8 :: octets, cursor)

/-- A character of a tag. The flag tells whether brackets and commas may stand in it. -/
def isTagChar (brackets : Bool) (c : Char) : Bool :=
  isWord c || c == ';' || c == '/' || c == '?' || c == ':' || c == '@' || c == '&' || c == '=' ||
    c == '+' || c == '$' || c == '.' || c == '%' || c == '!' || c == '~' || c == '*' ||
    c == '\x27' || c == '(' || c == ')' ||
    (brackets && (c == ',' || c == '[' || c == ']'))

/-- The octets of a tag. The bound is on the number of its characters. -/
def readTagOctets (brackets : Bool) : Nat → Cursor → Option (List UInt8 × Cursor)
  | 0, cursor => some ([], cursor)
  | bound + 1, cursor =>
    match cursor.peek? with
    | none => some ([], cursor)
    | some c =>
      if isTagChar brackets c then
        if c == '%' then
          match readPercent cursor with
          | none => none
          | some (first, next) =>
            (readTagOctets brackets bound next).map fun (octets, cursor) =>
              (first ++ octets, cursor)
        else
          (readTagOctets brackets bound (cursor.advance 1)).map fun (octets, cursor) =>
            (c.toUInt8 :: octets, cursor)
      else some ([], cursor)

/-- A tag handle: an exclamation mark, a word, and a second mark if there is one. -/
def readHandle (cursor : Cursor) : Option (List Char × Cursor) :=
  if cursor.isAt '!' then
    let (word, next) := (cursor.advance 1).takeWhile isWord
    if next.isAt '!' then some ('!' :: word ++ ['!'], next.advance 1) else some ('!' :: word, next)
  else none

/-- Whether a tag may end here. -/
def endsTag (inFlow : Bool) (cursor : Cursor) : Bool :=
  atGap cursor.rest || (inFlow && cursor.isAt ',')

/-- A tag: one between angle brackets, one with a handle of its own, or the short form that
belongs to the document. A lone exclamation mark is a tag without a handle. -/
def readTag (inFlow : Bool) (cursor : Cursor) : Option Lexeme := do
  let (token, next) ←
    if (cursor.advance 1).isAt '<' then
      let start := cursor.advance 2
      let (octets, next) ← readTagOctets true start.steps start
      if octets.isEmpty || !next.isAt '>' then none
      else pure (Token.tag "" (.ofOctets octets), next.advance 1)
    else
      let (handle, next) ← readHandle cursor
      let (octets, next') ← readTagOctets false next.steps next
      if 1 < handle.length && handle.getLast? == some '!' then
        if octets.isEmpty then none
        else pure (Token.tag (.ofList handle) (.ofOctets octets), next')
      else
        let suffix := (Tag.ofText (.ofList (handle.drop 1))).append (.ofOctets octets)
        if suffix.isEmpty then pure (Token.tag "" .lone, next')
        else pure (Token.tag "!" suffix, next')
  if endsTag inFlow next then some (token, next) else none

/-! ### Directives -/

/-- A number of a version, of at most nine digits. -/
def readVersionNumber (cursor : Cursor) : Option (Nat × Cursor) :=
  let (digits, next) := cursor.takeWhile Char.isDigit
  if digits.isEmpty || 9 < digits.length then none
  else some (digits.foldl (fun n c => 10 * n + (c.toNat - '0'.toNat)) 0, next)

/-- What follows the name of a version directive. -/
def readVersion (cursor : Cursor) : Option Lexeme := do
  let (major, next) ← readVersionNumber (cursor.skipWhile isBlank)
  if next.isAt '.' then
    let (minor, next) ← readVersionNumber (next.advance 1)
    some (.version major minor, next)
  else none

/-- What follows the name of a tag directive. -/
def readTagHandle (cursor : Cursor) : Option Lexeme := do
  let (handle, next) ← readHandle (cursor.skipWhile isBlank)
  if handle ≠ ['!'] && handle.getLast? != some '!' then none
  else if !next.rest.head?.any isBlank then none
  else
    let start := next.skipWhile isBlank
    let (octets, next) ← readTagOctets true start.steps start
    if octets.isEmpty || !atGap next.rest then none
    else some (.tagHandle (.ofList handle) (.ofOctets octets), next)

/-- A directive up to the end of its line. -/
def readDirective (cursor : Cursor) : Option Lexeme := do
  let (name, next) := (cursor.advance 1).takeWhile isWord
  if name.isEmpty || !atGap next.rest then none
  else
    let (token, next) ←
      if name = ['Y', 'A', 'M', 'L'] then readVersion next
      else if name = ['T', 'A', 'G'] then readTagHandle next
      else none
    let next := (next.skipWhile isBlank).skipComment
    if atLineEnd next.rest then some (token, next.nextLine) else none

/-! ### Block scalars -/

/-- What happens to the line breaks at the end of a block scalar. -/
inductive Chomping where
  /-- They are dropped. -/
  | strip
  /-- The first one is kept. -/
  | clip
  /-- They are kept. -/
  | keep
  deriving DecidableEq, Repr

/-- The chomping that a mark gives. -/
def Chomping.ofMark? (c : Char) : Option Chomping :=
  if c == '-' then some strip else if c == '+' then some keep else none

/-- The indentation that a digit gives; zero is none. -/
def indentDigit (cursor : Cursor) : Option (Nat × Cursor) :=
  match cursor.peek? with
  | some c =>
    if c.isDigit then
      if c == '0' then none else some (c.toNat - '0'.toNat, cursor.advance 1)
    else some (0, cursor)
  | none => some (0, cursor)

/-- The chomping mark at a cursor, if there is one. -/
def chompingMark (cursor : Cursor) : Chomping × Cursor :=
  match cursor.peek?.bind Chomping.ofMark? with
  | some chomping => (chomping, cursor.advance 1)
  | none => (.clip, cursor)

/-- The chomping and indentation after the mark of a block scalar, in either order. -/
def blockHeader (cursor : Cursor) : Option (Chomping × Nat × Cursor) := do
  match cursor.peek?.bind Chomping.ofMark? with
  | some chomping =>
    let (width, next) ← indentDigit (cursor.advance 1)
    some (chomping, width, next)
  | none =>
    let (width, next) ← indentDigit cursor
    if width = 0 then some (.clip, 0, next)
    else
      let (chomping, next) := chompingMark next
      some (chomping, width, next)

/-- The empty lines at a cursor and the indentation of the line after them: what their breaks
stand for, the widest indentation passed, and the cursor. Without a width every space counts as
indentation. The bound is on the number of lines. -/
def readEmptyLines (width : Option Nat) :
    Nat → List Char → Nat → Cursor → Option (List Char × Nat × Cursor)
  | 0, breaks, widest, cursor => some (breaks, widest, cursor)
  | bound + 1, breaks, widest, cursor =>
    let spaces := (cursor.rest.takeWhile (· == ' ')).length
    let next := cursor.advance (match width with
      | some width => min spaces (width - cursor.column)
      | none => spaces)
    let widest := max widest next.column
    if next.isAt '\t' && width.all (next.column < ·) then none
    else
      match next.takeBreak? with
      | none => some (breaks, widest, next)
      | some (mark, after) => readEmptyLines width bound (breaks ++ [mark]) widest after

/-- What the line break that leads to a further line stands for. In a folded scalar a line feed
between two lines that do not start with a blank stands for a space, or for nothing when empty
lines follow it. -/
def joinLines (folded afterBlank blank : Bool) (lead : Option Char) (empty : List Char) :
    List Char :=
  if folded && lead == some '\n' && !afterBlank && !blank then
    (if empty.isEmpty then [' '] else []) ++ empty
  else lead.toList ++ empty

/-- The lines of a block scalar from the first that is not empty: the text, the break that ends
the last line and the empty lines after it. The bound is on the number of lines. -/
def readBlockLines (folded : Bool) (width : Nat) :
    Nat → Bool → Option Char → List Char → Cursor →
      Option (List Char × Option Char × List Char × Cursor)
  | 0, _, lead, empty, cursor => some ([], lead, empty, cursor)
  | bound + 1, afterBlank, lead, empty, cursor =>
    if cursor.column = width && !cursor.rest.isEmpty then do
      let blank := cursor.rest.head?.any isBlank
      let front := joinLines folded afterBlank blank lead empty
      let (line, next) := cursor.takeWhile (!isBreak ·)
      let (lead, next) :=
        match next.takeBreak? with
        | some (mark, after) => (some mark, after)
        | none => (none, next)
      let (empty, _, next) ← readEmptyLines (some width) next.steps [] 0 next
      let (text, lead, empty, next) ← readBlockLines folded width bound blank lead empty next
      some (front ++ line ++ text, lead, empty, next)
    else some ([], lead, empty, cursor)

/-- A block scalar inside a block with a given indentation. -/
def readBlockScalar (folded : Bool) (indent : Int) (cursor : Cursor) : Option Lexeme := do
  let (chomping, given, next) ← blockHeader (cursor.advance 1)
  let next := (next.skipWhile isBlank).skipComment
  if !atLineEnd next.rest then none
  else
    let next := next.nextLine
    let given := if given = 0 then none else some ((max indent 0).toNat + given)
    let (empty, widest, next) ← readEmptyLines given next.steps [] 0 next
    let width := given.getD (max (max widest (indent + 1).toNat) 1)
    let (text, lead, empty, next) ←
      readBlockLines folded width next.steps false none empty next
    let tail :=
      match chomping with
      | .strip => []
      | .clip => lead.toList
      | .keep => lead.toList ++ empty
    some (.scalar (.ofList (text ++ tail)) false, next)

/-! ### Quoted scalars -/

/-- The number that `n` hexadecimal digits at the front of a text write. -/
def hexNumber? : Nat → Nat → List Char → Option Nat
  | 0, value, _ => some value
  | n + 1, value, c :: rest =>
    match hexValue? c with
    | some digit => hexNumber? n (value * 16 + digit) rest
    | none => none
  | _ + 1, _, [] => none

/-- The character of a one-letter escape. -/
def letterEscape? (c : Char) : Option Char :=
  match c with
  | '0' => some '\x00'
  | 'a' => some '\x07'
  | 'b' => some '\x08'
  | 't' | '\t' => some '\t'
  | 'n' => some '\n'
  | 'v' => some '\x0b'
  | 'f' => some '\x0c'
  | 'r' => some '\r'
  | 'e' => some '\x1b'
  | ' ' => some ' '
  | '"' => some '"'
  | '/' => some '/'
  | '\\' => some '\\'
  | 'N' => some '\x85'
  | '_' => some '\xa0'
  | 'L' => some '\u2028'
  | 'P' => some '\u2029'
  | _ => none

/-- The number of digits of an escape by code point. -/
def escapeWidth? (c : Char) : Option Nat :=
  match c with
  | 'x' => some 2
  | 'u' => some 4
  | 'U' => some 8
  | _ => none

/-- An escape at its backslash. -/
def readEscape (cursor : Cursor) : Option (Char × Cursor) :=
  match cursor.rest.drop 1 with
  | [] => none
  | c :: digits =>
    match letterEscape? c with
    | some c => some (c, cursor.advance 2)
    | none =>
      match escapeWidth? c with
      | none => none
      | some width =>
        match hexNumber? width 0 digits with
        | none => none
        | some code =>
          if (0xD800 ≤ code && code ≤ 0xDFFF) || 0x10FFFF < code then none
          else some (Char.ofNat code, cursor.advance (2 + width))

/-- The characters of a quoted scalar up to the next gap or the closing quote. The flag of the
result tells that the run ended in an escaped line break. The bound is on the number of
characters. -/
def readQuotedRun (single : Bool) : Nat → Cursor → Option (List Char × Bool × Cursor)
  | 0, cursor => some ([], false, cursor)
  | bound + 1, cursor =>
    match cursor.rest with
    | [] => some ([], false, cursor)
    | c :: rest =>
      if isGap c then some ([], false, cursor)
      else if single && c == '\'' then
        if rest.head? == some '\'' then
          (readQuotedRun single bound (cursor.advance 2)).map fun (run, result) =>
            (c :: run, result)
        else some ([], false, cursor)
      else if !single && c == '"' then some ([], false, cursor)
      else if !single && c == '\\' then
        if rest.head?.any isBreak then some ([], true, (cursor.advance 1).nextLine)
        else
          match readEscape cursor with
          | none => none
          | some (c, next) =>
            (readQuotedRun single bound next).map fun (run, result) => (c :: run, result)
      else
        (readQuotedRun single bound (cursor.advance 1)).map fun (run, result) => (c :: run, result)

/-- The text of a quoted scalar up to its closing quote, and the cursor at the quote. The bound is
on the number of runs. -/
def readQuotedText (single : Bool) : Nat → Cursor → Option (List Char × Cursor)
  | 0, _ => none
  | bound + 1, cursor =>
    if cursor.isAtAnyMarker || cursor.rest.isEmpty then none
    else do
      let (run, escaped, next) ← readQuotedRun single cursor.steps cursor
      if next.isAt (if single then '\'' else '"') then some (run, next)
      else
        let (gap, next) ← readGap none next.steps { broken := escaped } next
        let (text, next) ← readQuotedText single bound next
        some (run ++ gap.text ++ text, next)

/-- A scalar between single or double quotes. -/
def readQuotedScalar (single : Bool) (cursor : Cursor) : Option Lexeme :=
  (readQuotedText single cursor.steps (cursor.advance 1)).map fun (text, next) =>
    (.scalar (.ofList text) false, next.advance 1)

/-! ### Plain scalars -/

/-- The characters of a plain scalar up to the next gap or to a mark that ends it: a colon before
a gap, and in flow collections a bracket, brace or comma. In flow collections a colon may not stand
before a bracket, brace, comma or question mark. -/
def plainRun (inFlow : Bool) : List Char → Option (List Char)
  | [] => some []
  | c :: rest =>
    if isGap c then some []
    else if inFlow && c == ':' && rest.head?.any fun d => isFlowMark d || d == '?' then none
    else if (c == ':' && atGap rest) || (inFlow && isFlowMark c) then some []
    else (plainRun inFlow rest).map (c :: ·)

/-- The text of a plain scalar that continues with `gap` before the cursor: the text, the cursor
after it and whether a line break was passed after the last character. The bound is on the number
of runs. -/
def readPlainText (inFlow : Bool) (indent : Int) :
    Nat → Gap → Cursor → Option (List Char × Bool × Cursor)
  | 0, gap, cursor => some ([], gap.broken, cursor)
  | bound + 1, gap, cursor =>
    if cursor.isAtAnyMarker || cursor.isAt '#' then some ([], gap.broken, cursor)
    else do
      let run ← plainRun inFlow cursor.rest
      let next := cursor.advance run.length
      let front := if run.isEmpty then [] else gap.text ++ run
      let carried := if run.isEmpty then gap else {}
      if next.rest.head?.any isGap then
        let (gap, next) ← readGap (some (indent + 1)) next.steps carried next
        if !inFlow && (next.column : Int) < indent + 1 then some (front, gap.broken, next)
        else
          let (text, broken, next) ← readPlainText inFlow indent bound gap next
          some (front ++ text, broken, next)
      else some (front, carried.broken, next)

/-- A plain scalar inside a block with a given indentation. The flag of the result tells whether
it ends behind a line break. -/
def readPlainScalar (inFlow : Bool) (indent : Int) (cursor : Cursor) : Option (Lexeme × Bool) :=
  (readPlainText inFlow indent cursor.steps {} cursor).map fun (text, broken, next) =>
    ((.scalar (.ofList text) true, next), broken)

end SchemaCompiler.Yaml
