import SchemaCompiler.Log.Notice
import SchemaCompiler.Text.Alphanumeric
import SchemaCompiler.Text.Blank

/-!
# Filters of the log

Which notices are shown. A filter is a list of directives separated by commas. Each allows notices
up to a level, either all of them or those of the parts whose name begins with a given text, and
perhaps only those that carry a value under a given name. The most specific directive that fits a
notice decides, and of equal ones the last. A notice that no directive fits is not shown.

## The model

A directive is written `target[span{field=value}]=level`, and each part of it but one may be left
out. A directive that names a span or a value is about spans only, and the runs of this program have
none, so it fits no notice.
-/

namespace SchemaCompiler

/-- A part of a filter. -/
structure Directive where
  /-- How the names of the parts begin that the directive is about; without it, it is about all. -/
  target : Option String
  /-- The name of a value that a notice has to carry, if any. -/
  field : Option String
  /-- The rank of the last level that is shown; nothing is shown at zero. -/
  rank : Nat
  deriving DecidableEq, Repr, Inhabited

namespace Directive

/-- Whether a directive is about a notice. -/
def fits (directive : Directive) (notice : Notice) : Bool :=
  directive.target.all (notice.target.startsWith ·) && directive.field.all notice.carries

/-- How specific a directive is about parts. -/
def extent (directive : Directive) : Nat :=
  match directive.target with
  | some name => name.length + 1
  | none => 0

/-- Whether a directive is less specific than another: its target is shorter, or it asks for no
value where the other does, or for one whose name comes before that of the other. -/
def isBelow (directive other : Directive) : Bool :=
  directive.extent < other.extent || (directive.extent == other.extent &&
    match directive.field, other.field with
    | none, some _ => true
    | some name, some name' => name < name'
    | _, none => false)

end Directive

/-- Which notices are shown. -/
structure Filter where
  /-- The directives in order. -/
  directives : List Directive
  deriving DecidableEq, Repr, Inhabited

namespace Filter

/-- A text in lower case, as far as ASCII goes. -/
def lower (s : String) : String :=
  .ofList (s.toList.map Char.toLower)

/-- The number that a text writes in digits, with or without a plus sign. -/
def number? (s : String) : Option Nat :=
  let digits :=
    match s.toList with
    | '+' :: digits => digits
    | digits => digits
  if !digits.isEmpty && digits.all Char.isDigit then
    some (digits.foldl (fun n c => 10 * n + (c.toNat - '0'.toNat)) 0)
  else none

/-- The rank that a text names: the name of a level in any case, or its number. -/
def rank? (s : String) : Option Nat :=
  let names := [("off", 0), ("error", 1), ("warn", 2), ("info", 3), ("debug", 4), ("trace", 5)]
  match names.lookup (lower s) with
  | some rank => some rank
  | none => (number? s).filter (· ≤ 5)

/-- The rank of everything. -/
def everything : Nat := 5

/-- Whether a directive may begin with a character, other than a bracket. -/
def beginsDirective (c : Char) : Bool :=
  Text.isAlphanumeric c || c == '-' || c == ':' || c == '_'

/-- The rank that the end of a directive names, which is everything when nothing stands there. -/
def endRank? (level : String) : Option Nat :=
  if level.isEmpty then some everything else rank? level

/-- A text without the blanks around it. -/
def trimmed (cs : List Char) : List Char :=
  ((cs.dropWhile Text.isBlank).reverse.dropWhile Text.isBlank).reverse

/-- The directive that a text writes. The outer `none` stands for a text that is no directive, and
the inner one for a directive about spans. The grammar counts characters from the first one that is
not blank, and the parts are taken from the text by these counts. -/
def directive? (text : String) : Option (Option Directive) :=
  let cs := trimmed text.toList
  match cs with
  | [] => none
  | '[' :: _ => bracket? none 1 cs
  | c :: _ =>
    if !beginsDirective c then none
    else
      let n := (cs.takeWhile fun c => c ≠ '=' && c ≠ '[').length
      match cs.drop n with
      | [] =>
        match rank? text with
        | some rank => some (some ⟨none, none, rank⟩)
        | none => some (some ⟨some text, none, everything⟩)
      | '=' :: _ => level? (some (part 0 n)) none (n + 1)
      | _ => bracket? (some (part 0 n)) (n + 1) cs
where
  /-- The part of the text that begins after `start` characters and has `length` of them. -/
  part (start length : Nat) : String :=
    .ofList ((text.toList.drop start).take length)
  /-- A directive whose level begins after `start` characters. -/
  level? (target field : Option String) (start : Nat) : Option (Option Directive) :=
    (endRank? (.ofList (text.toList.drop start))).map fun rank => some ⟨target, field, rank⟩
  /-- A directive that may go on with a level after `start` characters. -/
  tail? (target field : Option String) (aboutSpans : Bool) (start : Nat) (cs : List Char) :
      Option (Option Directive) :=
    let reading :=
      match cs.drop start with
      | [] => some (some ⟨target, field, everything⟩)
      | '=' :: _ => level? target field (start + 1)
      | _ => none
    if aboutSpans then reading.map fun _ => none else reading
  /-- A directive whose brackets open before the character at `start`. -/
  bracket? (target : Option String) (start : Nat) (cs : List Char) : Option (Option Directive) :=
    let n := ((cs.drop start).takeWhile fun c => c ≠ ']' && c ≠ '\x7b').length
    match cs.drop (start + n) with
    | ']' :: _ => tail? target none true (start + n + 1) cs
    | '\x7b' :: rest =>
      let m := (rest.takeWhile (· ≠ '\x7d')).length
      if m = 0 then none
      else
        match rest.drop m with
        | '\x7d' :: ']' :: _ =>
          let field := part (start + n + 1) m
          let aboutSpans := !(part start n).isEmpty || field.contains '='
          tail? target (some field) aboutSpans (start + n + m + 3) cs
        | _ => none
    | _ => none

/-- The filter that a text writes; `none` when a part of it is no directive. A text without
directives shows errors only. -/
def ofText? (text : String) : Option Filter :=
  let parts := ((text.splitOn ",").filter (!·.isEmpty)).map directive?
  if parts.any Option.isNone then none
  else if parts.isEmpty then some ⟨[⟨none, none, 1⟩]⟩
  else some ⟨parts.filterMap Option.join⟩

/-- The filter for a number of requests to be verbose. -/
def ofVerbosity (requests : Nat) : Filter :=
  ⟨[⟨none, none, min (requests + 2) everything⟩]⟩

/-- The filter of a run: the one that is asked for by text, if that can be read, and otherwise the
one for the number of requests to be verbose. -/
def choose (text : Option String) (requests : Nat) : Filter :=
  (text.bind ofText?).getD (ofVerbosity requests)

/-- The most specific directive about a notice, and of equal ones the last. -/
def best? (filter : Filter) (notice : Notice) : Option Directive :=
  (filter.directives.filter (·.fits notice)).foldl (fun best? directive =>
    match best? with
    | some best => if directive.isBelow best then some best else some directive
    | none => some directive) none

/-- Whether a notice is shown. -/
def allows (filter : Filter) (notice : Notice) : Bool :=
  match filter.best? notice with
  | some directive => notice.level.rank ≤ directive.rank
  | none => false

end Filter

end SchemaCompiler
