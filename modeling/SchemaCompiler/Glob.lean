import SchemaCompiler.Disk.Basic

/-!
# Patterns for paths

A pattern stands for the files whose paths it matches. In a component `*` matches any characters,
`?` one character, and brackets one of a set, or with `!` one outside of it. The component `**`
stands for any number of directories.

`expand` gives the paths in the order of a walk through the directories, each in the order of its
names. A component without wildcards is followed whether or not it is listed in its directory, so
points and doubled slashes may stand in a pattern. A pattern that ends in a slash matches
directories only.
-/

namespace SchemaCompiler.Glob

/-! ### Components -/

/-- A range of characters, ends included. -/
structure CharRange where
  /-- The first character. -/
  first : Char
  /-- The last character. -/
  last : Char
  deriving DecidableEq, Repr

/-- A part of a component. -/
inductive Part where
  /-- A character that stands for itself. -/
  | char (c : Char)
  /-- Any character. -/
  | anyChar
  /-- Any characters, also none. -/
  | anyText
  /-- Any directories, also none. -/
  | anyDirectories
  /-- A character of a set. -/
  | within (ranges : List CharRange)
  /-- A character outside of a set. -/
  | outside (ranges : List CharRange)
  deriving DecidableEq, Repr

/-- What is wrong with a pattern. -/
inductive PatternCause where
  /-- A bracket opens no set. -/
  | badSet
  /-- There are more than two stars in a row. -/
  | tooManyStars
  /-- Two stars stand beside other characters. -/
  | starsNotAlone
  deriving DecidableEq, Repr

/-- Why a text is no pattern. -/
structure PatternFault where
  /-- The number of characters before the place at fault. -/
  position : Nat
  /-- What is wrong there. -/
  cause : PatternCause
  deriving DecidableEq, Repr

/-- The wording of a fault. -/
def PatternFault.message (fault : PatternFault) : String :=
  let cause :=
    match fault.cause with
    | .badSet => "invalid range pattern"
    | .tooManyStars => "wildcards are either regular `*` or recursive `**`"
    | .starsNotAlone => "recursive wildcards must form a single path component"
  "Pattern syntax error near position " ++ toString fault.position ++ ": " ++ cause

/-- The ranges of a set. A hyphen between two characters makes a range of them. -/
def ranges : List Char → List CharRange
  | a :: '-' :: b :: rest => ⟨a, b⟩ :: ranges rest
  | c :: rest => ⟨c, c⟩ :: ranges rest
  | [] => []

/-- The set after an opening bracket, and what follows its closing bracket. The first character of a
set is never its closing bracket. -/
def readSet? (cs : List Char) : Option (Part × List Char) :=
  let (negated, cs) :=
    match cs with
    | '!' :: rest => (true, rest)
    | cs => (false, cs)
  match cs with
  | [] => none
  | first :: rest =>
    match rest.dropWhile (· ≠ ']') with
    | [] => none
    | _ :: after =>
      let set := ranges (first :: rest.takeWhile (· ≠ ']'))
      some (if negated then .outside set else .within set, after)

/-- The parts of a pattern. `before` is the character before the text and `position` the number of
characters before it. The bound is on the number of characters. -/
def readParts : Nat → Option Char → Nat → List Char → Except PatternFault (List Part)
  | 0, _, _, _ => .ok []
  | _ + 1, _, _, [] => .ok []
  | bound + 1, before, position, c :: rest =>
    if c = '?' then (readParts bound c (position + 1) rest).map (.anyChar :: ·)
    else if c = '*' then
      let more := (rest.takeWhile (· = '*')).length
      let after := rest.drop more
      if 1 < more then .error ⟨position + 2, .tooManyStars⟩
      else if more = 0 then (readParts bound c (position + 1) after).map (.anyText :: ·)
      else if before.any (· ≠ '/') then .error ⟨position - 1, .starsNotAlone⟩
      else
        match after with
        | [] => .ok [.anyDirectories]
        | d :: after =>
          if d = '/' then
            (readParts bound d (position + 3) after).map (.anyDirectories :: ·)
          else .error ⟨position + 2, .starsNotAlone⟩
    else if c = '[' then
      match readSet? rest with
      | some (part, after) =>
        (readParts bound ']' (position + 1 + (rest.length - after.length)) after).map (part :: ·)
      | none => .error ⟨position, .badSet⟩
    else (readParts bound c (position + 1) rest).map (.char c :: ·)

/-- The parts of a whole pattern or of one of its components. -/
def parts (cs : List Char) : Except PatternFault (List Part) :=
  readParts (cs.length + 1) none 0 cs

/-- Whether a set has a character. -/
def inRanges (set : List CharRange) (c : Char) : Bool :=
  set.any fun range => range.first ≤ c && c ≤ range.last

/-- Whether a part matches one character. -/
def Part.matchesChar (c : Char) : Part → Bool
  | char d => c = d
  | anyChar => true
  | within set => inRanges set c
  | outside set => !inRanges set c
  | anyText | anyDirectories => false

/-- Whether some end of a text, the whole text included, has a property. -/
def someEnd (p : List Char → Bool) : List Char → Bool
  | [] => p []
  | c :: cs => p (c :: cs) || someEnd p cs

/-- Whether parts match a whole name. -/
def matchesName : List Part → List Char → Bool
  | [], cs => cs.isEmpty
  | .anyText :: parts, cs | .anyDirectories :: parts, cs => someEnd (matchesName parts) cs
  | part :: parts, c :: cs => part.matchesChar c && matchesName parts cs
  | _ :: _, [] => false

/-! ### Walking the directories -/

/-- The text that a component matches, if it has no wildcards. -/
def literal? : List Part → Option (List Char)
  | [] => some []
  | .char c :: parts => (literal? parts).map (c :: ·)
  | _ :: _ => none

/-- Whether a component stands for any number of directories. -/
def isRecursive (component : List Part) : Bool :=
  component = [.anyDirectories]

/-- The names in a directory, in order. -/
def names (disk : Disk) (path : Path) : List String :=
  match disk.locate path with
  | .error _ => []
  | .ok location =>
    let children := disk.entries.filterMap fun entry =>
      match entry.1.getLast? with
      | some name => if entry.1 = location ++ [name] then some name else none
      | none => none
    children.mergeSort (· ≤ ·)

/-- Whether something is at a path. -/
def exists? (disk : Disk) (path : Path) : Bool :=
  match disk.locate path with
  | .error _ => false
  | .ok location => (disk.entry? location).isSome

/-- The path of a name in a directory. The directory in which the walk starts is not spelt. -/
def child (path : Path) (name : String) : Path :=
  if path.same ⟨"."⟩ then ⟨name⟩ else path.join name

/-- The name of the file that a path names, if it ends in one. -/
def fileName? (path : Path) : Option String :=
  match path.components.getLast? with
  | some (.name name) => some name
  | _ => none

/-- A pattern cut into components. -/
structure Pattern where
  /-- The components in order. -/
  components : List (List Part)
  /-- Whether only directories match. -/
  directoriesOnly : Bool

/-- A place in the walk: a path, and the components that it and what is below it have to match. A
path with no components left matches already. -/
abbrev Stop := Path × List (List Part)

/-- The places to which a directory leads, given the components that what is in it has to
match. -/
def stops (disk : Disk) (path : Path) : List (List Part) → List Stop
  | [] => [(path, [])]
  | component :: later =>
    match literal? component with
    | some cs =>
      let name := String.ofList cs
      let next := child path name
      let there :=
        if name = "." || name = ".." then disk.isDirectory path else exists? disk next
      if there then stops disk next later else []
    | none =>
      if disk.isDirectory path then
        let special :=
          if component.head? = some (.char '.') then
            ["..", "."].filter fun name => matchesName component name.toList
          else []
        special.flatMap (fun name => stops disk (path.join name) later) ++
          (names disk path).map fun name => (child path name, component :: later)
      else []

/-- The paths that match from a place on. The bound is on the length of the walk. -/
def matchesFrom (disk : Disk) (directoriesOnly : Bool) : Nat → Stop → List Path
  | 0, _ => []
  | _ + 1, (path, []) =>
    if directoriesOnly && !disk.isDirectory path then [] else [path]
  | bound + 1, (path, component :: later) =>
    let byName (components : List (List Part)) : List Path :=
      match components, fileName? path with
      | component :: later, some name =>
        if matchesName component name.toList then
          if later.isEmpty then
            if !directoriesOnly || disk.isDirectory path then [path] else []
          else (stops disk path later).flatMap (matchesFrom disk directoriesOnly bound)
        else []
      | _, _ => []
    if isRecursive component then
      let later := later.dropWhile isRecursive
      let below :=
        if disk.isDirectory path then
          (stops disk path (component :: later)).flatMap (matchesFrom disk directoriesOnly bound)
        else []
      let here :=
        if later.isEmpty then if disk.isDirectory path then [path] else [] else byName later
      here ++ below
    else byName (component :: later)

/-- Cuts a pattern at its slashes; one at its end opens no further component. -/
def splitComponents (cs : List Char) : List (List Char) :=
  let pieces := Path.splitSlashes cs
  if pieces.getLast? = some [] then pieces.dropLast else pieces

/-- The components of a list of texts. -/
def readComponents : List (List Char) → Except PatternFault (List (List Part))
  | [] => .ok []
  | piece :: pieces => do
    let component ← parts piece
    let components ← readComponents pieces
    .ok (component :: components)

/-- Whether a text has a wildcard. -/
def hasWildcard (text : String) : Bool :=
  text.toList.any fun c => c == '*' || c == '?' || c == '['

/-- The paths that match a pattern. -/
def expand (disk : Disk) (text : String) : Except PatternFault (List Path) := do
  let cs := text.toList
  let _ ← parts cs
  let absolute := cs.head? = some '/'
  let components ← readComponents (splitComponents (if absolute then cs.drop 1 else cs))
  let start : Path := ⟨if absolute then "/" else "."⟩
  let bound := 2 * (disk.entries.length + components.length) + 4
  let directoriesOnly := cs.getLast? = some '/'
  .ok ((stops disk start components).flatMap (matchesFrom disk directoriesOnly bound))

end SchemaCompiler.Glob
