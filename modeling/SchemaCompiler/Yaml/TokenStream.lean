import SchemaCompiler.Yaml.Lexeme

/-!
# The tokens of a YAML text

`Released.ofText` turns a text into its tokens. It gives as many of them as are settled before the
first place where the text breaks a rule, and tells whether there is such a place.

## The model

The scanner keeps the columns at which the open block collections began. A token to the left of
such a column closes the collection; an item mark or key to its right opens a new one.

A key of a map need not be marked: only the colon after it shows that what came before was a key,
and then a key token, and perhaps the start of a map, is put in front of it after the fact. So for
every level of flow collections the scanner remembers the last token that may turn out to begin a
key. Such a candidate is given up at the end of its line or after 1024 characters. Where the
indentation leaves no other reading than a key, giving it up breaks a rule of the language.

A token is settled when nothing can be put in front of it or of a token before it any more.

The text is read in blocks. A character that is not allowed spoils the whole block that it stands
in, so that what stands shortly before it may already be out of reach.
-/

namespace SchemaCompiler.Yaml

/-- A token that may turn out to begin a key. -/
structure Candidate where
  /-- The number of tokens before it. -/
  position : Nat
  /-- Where it stands in the text. -/
  index : Nat
  /-- The line on which it stands. -/
  line : Nat
  /-- The column at which it stands. -/
  column : Nat
  /-- Whether it can be nothing but a key. -/
  required : Bool
  deriving Inhabited

/-- The state of the scanner between two tokens. -/
structure Scanner where
  /-- The place in the text. -/
  cursor : Cursor
  /-- The tokens so far. -/
  tokens : Array Token := #[.streamStart]
  /-- How many flow collections are open. -/
  flow : Nat := 0
  /-- The column of the innermost open block collection, or −1. -/
  indent : Int := -1
  /-- The columns of the other open block collections, innermost first. -/
  outer : List Int := []
  /-- Whether a key without a mark may begin here. -/
  keyAllowed : Bool := true
  /-- The candidates for the open levels, innermost first, the last one for the text outside of
  flow collections. -/
  candidates : List (Option Candidate) := [none]
  deriving Inhabited

namespace Scanner

/-- Whether the scanner is inside a flow collection. -/
def inFlow (s : Scanner) : Bool :=
  0 < s.flow

/-- The scanner after one more token. -/
def push (s : Scanner) (token : Token) : Scanner :=
  { s with tokens := s.tokens.push token }

/-- The scanner after one more token of the given length. -/
def pushOver (s : Scanner) (token : Token) (length : Nat) : Scanner :=
  { s with tokens := s.tokens.push token, cursor := s.cursor.advance length }

/-- Puts a token in front of the token at a position. -/
def insertAt (s : Scanner) (position : Nat) (token : Token) : Scanner :=
  { s with tokens := s.tokens.insertIdxIfInBounds position token }

/-! ### Candidates -/

/-- Whether a candidate has been left behind by the cursor. -/
def isStale (s : Scanner) (c : Candidate) : Bool :=
  c.line < s.cursor.line || c.index + 1024 < s.cursor.index

/-- Gives up the candidates that have been left behind, unless one of them has to be a key. -/
def dropStale (s : Scanner) : Option Scanner :=
  if s.candidates.any fun c => c.any fun c => s.isStale c && c.required then none
  else
    some { s with candidates := s.candidates.map fun c => c.filter fun c => !s.isStale c }

/-- The candidate of the innermost level. -/
def candidate (s : Scanner) : Option Candidate :=
  s.candidates.head?.join

/-- Gives the innermost level a candidate. -/
def withCandidate (s : Scanner) (c : Option Candidate) : Scanner :=
  { s with candidates := c :: s.candidates.drop 1 }

/-- Gives up the candidate of the innermost level, unless it has to be a key. -/
def dropCandidate (s : Scanner) : Option Scanner :=
  if s.candidate.any (·.required) then none else some (s.withCandidate none)

/-- Makes the next token the candidate of its level, if a key may begin here. -/
def offerCandidate (s : Scanner) : Option Scanner :=
  if s.keyAllowed then do
    let required := !s.inFlow && s.indent == (s.cursor.column : Int)
    let s' ← s.dropCandidate
    some <| s'.withCandidate <| some
      { position := s.tokens.size
        index := s.cursor.index
        line := s.cursor.line
        column := s.cursor.column
        required }
  else some s

/-- How many tokens are settled: those before the earliest candidate. -/
def settled (s : Scanner) : Nat :=
  s.candidates.foldl (fun n c =>
    match c with
    | some c => min n c.position
    | none => n) s.tokens.size

/-! ### Indentation -/

/-- Opens a block collection at a column, if that is further right than the innermost one. Its
start token goes to the given position. -/
def openBlock (s : Scanner) (column : Nat) (position : Nat) (token : Token) : Scanner :=
  if !s.inFlow && s.indent < (column : Int) then
    { s.insertAt position token with indent := column, outer := s.indent :: s.outer }
  else s

/-- Closes the block collections that began right of a column, given their columns innermost
first. -/
def closeBlocks (column : Int) (s : Scanner) : List Int → Scanner
  | [] => s
  | next :: outer =>
    if column < s.indent then
      closeBlocks column { s with tokens := s.tokens.push .blockEnd, indent := next, outer } outer
    else s

/-- Closes the block collections that began right of a column. -/
def unindent (s : Scanner) (column : Int) : Scanner :=
  if s.inFlow then s else closeBlocks column s s.outer

/-! ### Tokens -/

/-- Skips blanks, comments and line breaks. In a block a tab counts as a blank only where no key
may begin. A byte order mark may stand at the start of a line. The bound is on the number of
lines. -/
def skipGaps : Nat → Scanner → Scanner
  | 0, s => s
  | bound + 1, s =>
    let tabs := s.inFlow || !s.keyAllowed
    let start :=
      if s.cursor.column = 0 && s.cursor.isAt '\ufeff' then s.cursor.advance 1 else s.cursor
    let cursor := (start.skipWhile fun c => c == ' ' || (tabs && c == '\t')).skipComment
    if cursor.rest.head?.any isBreak then
      skipGaps bound
        { s with cursor := cursor.nextLine, keyAllowed := s.keyAllowed || !s.inFlow }
    else { s with cursor }

/-- The end of the text. -/
def fetchEnd (s : Scanner) : Option Scanner := do
  let s ← (s.unindent (-1)).dropCandidate
  some { s.push .streamEnd with keyAllowed := false }

/-- A directive. -/
def fetchDirective (s : Scanner) : Option Scanner := do
  let s ← (s.unindent (-1)).dropCandidate
  let (token, cursor) ← readDirective s.cursor
  some { s.push token with cursor, keyAllowed := false }

/-- A document marker. -/
def fetchMarker (s : Scanner) (token : Token) : Option Scanner := do
  let s ← (s.unindent (-1)).dropCandidate
  some { s.pushOver token 3 with keyAllowed := false }

/-- The start of a flow collection, which may be a key itself and may begin with one. -/
def fetchFlowStart (s : Scanner) (token : Token) : Option Scanner := do
  let s ← s.offerCandidate
  some
    { s.pushOver token 1 with
      flow := s.flow + 1
      candidates := none :: s.candidates
      keyAllowed := true }

/-- The end of a flow collection. -/
def fetchFlowEnd (s : Scanner) (token : Token) : Option Scanner := do
  let s ← s.dropCandidate
  some
    { s.pushOver token 1 with
      flow := s.flow - 1
      candidates := if s.inFlow then s.candidates.drop 1 else s.candidates
      keyAllowed := false }

/-- The comma in a flow collection. -/
def fetchComma (s : Scanner) : Option Scanner := do
  let s ← s.dropCandidate
  some { s.pushOver .comma 1 with keyAllowed := true }

/-- The mark before an item of a block list. -/
def fetchEntry (s : Scanner) : Option Scanner := do
  if !s.inFlow && !s.keyAllowed then none
  else
    let s ← (s.openBlock s.cursor.column s.tokens.size .blockListStart).dropCandidate
    some { s.pushOver .entry 1 with keyAllowed := true }

/-- The mark before a key. -/
def fetchKey (s : Scanner) : Option Scanner := do
  if !s.inFlow && !s.keyAllowed then none
  else
    let s ← (s.openBlock s.cursor.column s.tokens.size .blockMapStart).dropCandidate
    some { s.pushOver .key 1 with keyAllowed := !s.inFlow }

/-- The mark before a value. If there is a candidate, it is a key. -/
def fetchValue (s : Scanner) : Option Scanner :=
  match s.candidate with
  | some c =>
    let s := (s.insertAt c.position .key).openBlock c.column c.position .blockMapStart
    some { (s.withCandidate none).pushOver .value 1 with keyAllowed := false }
  | none =>
    if !s.inFlow && !s.keyAllowed then none
    else
      let s := s.openBlock s.cursor.column s.tokens.size .blockMapStart
      some { s.pushOver .value 1 with keyAllowed := !s.inFlow }

/-- A token that may begin a key. -/
def fetchLexeme (s : Scanner) (read : Scanner → Option (Lexeme × Bool)) : Option Scanner := do
  let s ← s.offerCandidate
  let ((token, cursor), keyAllowed) ← read s
  some { s.push token with cursor, keyAllowed }

/-- A block scalar. -/
def fetchBlockScalar (s : Scanner) (folded : Bool) : Option Scanner := do
  let s ← s.dropCandidate
  let (token, cursor) ← readBlockScalar folded s.indent s.cursor
  some { s.push token with cursor, keyAllowed := true }

/-- Whether a plain scalar may begin with a character, given what follows it. -/
def beginsPlain (inFlow : Bool) (c : Char) (rest : List Char) : Bool :=
  if c == '-' then !rest.head?.any isBlank
  else if c == '?' || c == ':' then !inFlow && !atGap rest
  else
    !(isGap c || isFlowMark c || c == '#' || c == '&' || c == '*' || c == '!' || c == '|' ||
      c == '>' || c == '\'' || c == '"' || c == '%' || c == '@' || c == '`')

/-- The token at the cursor, which stands behind all gaps. -/
def fetchAt (s : Scanner) : Option Scanner :=
  match s.cursor.rest with
  | [] => s.fetchEnd
  | c :: rest =>
    if s.cursor.column = 0 && c == '%' then s.fetchDirective
    else if s.cursor.isAtMarker '-' then s.fetchMarker .documentStart
    else if s.cursor.isAtMarker '.' then s.fetchMarker .documentEnd
    else if c == '[' then s.fetchFlowStart .flowListStart
    else if c == '\x7b' then s.fetchFlowStart .flowMapStart
    else if c == ']' then s.fetchFlowEnd .flowListEnd
    else if c == '\x7d' then s.fetchFlowEnd .flowMapEnd
    else if c == ',' then s.fetchComma
    else if c == '-' && atGap rest then s.fetchEntry
    else if c == '?' && (s.inFlow || atGap rest) then s.fetchKey
    else if c == ':' && (s.inFlow || atGap rest) then s.fetchValue
    else if c == '*' then
      s.fetchLexeme fun s =>
        (readAnchor s.cursor).map fun (name, next) => ((.repetition name, next), false)
    else if c == '&' then
      s.fetchLexeme fun s =>
        (readAnchor s.cursor).map fun (name, next) => ((.anchor name, next), false)
    else if c == '!' then
      s.fetchLexeme fun s => (readTag s.inFlow s.cursor).map fun lexeme => (lexeme, false)
    else if c == '|' && !s.inFlow then s.fetchBlockScalar false
    else if c == '>' && !s.inFlow then s.fetchBlockScalar true
    else if c == '\'' then
      s.fetchLexeme fun s => (readQuotedScalar true s.cursor).map fun lexeme => (lexeme, false)
    else if c == '"' then
      s.fetchLexeme fun s => (readQuotedScalar false s.cursor).map fun lexeme => (lexeme, false)
    else if beginsPlain s.inFlow c rest then
      s.fetchLexeme fun s => readPlainScalar s.inFlow s.indent s.cursor
    else none

/-- The scanner after the next token of the text and the tokens that its place implies. -/
def fetch (s : Scanner) : Option Scanner := do
  let s ← (skipGaps s.cursor.steps s).dropStale
  (s.unindent s.cursor.column).fetchAt

/-- How many characters the scanner looks at beyond the place where it stands. -/
def lookahead : Nat := 4

/-- Whether the text goes on as far as the scanner looks. -/
def seesAhead (s : Scanner) : Bool :=
  s.cursor.index + lookahead ≤ s.cursor.size

/-- Whether the end of the text has become a token. -/
def isDone (s : Scanner) : Bool :=
  s.tokens.back? == some .streamEnd

end Scanner

/-- The settled tokens of a text. -/
structure Released where
  /-- The tokens. -/
  tokens : List Token
  /-- Whether they are all tokens of the text. -/
  whole : Bool
  deriving Inhabited

namespace Released

/-- Scans a text to its end or to the first place that breaks a rule. A text that goes on where it
cannot be read has a wall behind its last character, and what needs the characters behind the wall
breaks a rule too. The bound is on the number of tokens. -/
def ofScanner (walled : Bool) : Nat → Scanner → Released
  | 0, s => ⟨s.tokens.toList.take s.settled, false⟩
  | bound + 1, s =>
    if s.isDone then ⟨s.tokens.toList, true⟩
    else
      match s.dropStale.bind fun s => s.fetch.filter fun next => !walled || next.seesAhead with
      | none => ⟨s.tokens.toList.take ((s.dropStale.getD s).settled), false⟩
      | some next => ofScanner walled bound next

/-- How many octets are read at a time. -/
def blockSize : Nat := 16384

/-- The characters of a text that can be read, and whether the text goes on behind them. A text is
read in blocks of octets, as many whole characters at a time as fit, and a block with a character
that is not allowed is not read at all. The arguments are the characters of the blocks before and
those of the current block, both backwards, and the octets that are left in the block. -/
def readable (before block : List Char) (room : Nat) : List Char → List Char × Bool
  | [] => ((block ++ before).reverse, false)
  | c :: rest =>
    let (before, block, room) :=
      if c.utf8Size ≤ room then (before, block, room) else (block ++ before, [], blockSize)
    if isAllowed c then readable before (c :: block) (room - c.utf8Size) rest
    else (before.reverse, true)

/-- The settled tokens of a text. -/
def ofText (source : String) : Released :=
  let (text, walled) := readable [] [] blockSize source.toList
  let cursor := Cursor.ofText text
  ofScanner walled (cursor.steps + 1) { cursor }

end Released

end SchemaCompiler.Yaml
