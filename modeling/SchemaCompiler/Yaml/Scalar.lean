import SchemaCompiler.Decimal.Reader
import SchemaCompiler.Tree.Basic
import SchemaCompiler.Yaml.Tag

/-!
# Values of scalars

What an unquoted scalar means: nothing, a truth value, an integer, a floating-point number, or the
text that it is. Integers are written in decimal digits or with a base mark, and one that fits 64
bits neither with nor without sign is no value at all, unless it is so long that it counts as a
floating-point number. A number whose first digit is a needless zero is a text.

A tag can demand one of these readings.
-/

namespace SchemaCompiler.Yaml.Scalar

/-- Whether a text means the empty value. -/
def isNull (s : String) : Bool :=
  s == "null" || s == "Null" || s == "NULL" || s == "~"

/-- The truth value that a text means. -/
def bool? (s : String) : Option Bool :=
  if s == "true" || s == "True" || s == "TRUE" then some true
  else if s == "false" || s == "False" || s == "FALSE" then some false
  else none

/-! ### Integers -/

/-- The value of a digit in any base. -/
def digitValue (c : Char) : Nat :=
  if c.isDigit then c.toNat - '0'.toNat
  else if c.isUpper then c.toNat - 'A'.toNat + 10
  else if c.isLower then c.toNat - 'a'.toNat + 10
  else 36

/-- The number that digits write in a base. -/
def digits? (base : Nat) (cs : List Char) : Option Nat :=
  if !cs.isEmpty && cs.all (digitValue · < base) then
    some (cs.foldl (fun n c => n * base + digitValue c) 0)
  else none

/-- The base that a text without sign is written in, and its digits. -/
def base (cs : List Char) : Nat × List Char :=
  match cs with
  | '0' :: 'x' :: digits => (16, digits)
  | '0' :: 'o' :: digits => (8, digits)
  | '0' :: 'b' :: digits => (2, digits)
  | digits => (10, digits)

/-- Whether a text without sign is made of digits with a needless zero in front. -/
def hasLeadingZero : List Char → Bool
  | '0' :: c :: rest => c.isDigit && rest.all Char.isDigit
  | _ => false

/-- The sign of a text and what follows it. -/
def sign : List Char → Bool × List Char
  | '-' :: rest => (true, rest)
  | '+' :: rest => (false, rest)
  | cs => (false, cs)

/-- The integer that a text writes, however large. -/
def integer? (cs : List Char) : Option Int :=
  let (negative, magnitude) := sign cs
  if hasLeadingZero magnitude then none
  else
    let (base, digits) := base magnitude
    (digits? base digits).map fun n => if negative then -(n : Int) else n

/-- Whether an integer fits 64 bits, with or without sign. -/
def fits64 (n : Int) : Bool :=
  -Int.pow 2 63 ≤ n && n < Int.pow 2 64

/-- Whether an integer fits 128 bits, with or without sign. -/
def fits128 (n : Int) : Bool :=
  -Int.pow 2 127 ≤ n && n < Int.pow 2 128

/-! ### Floating-point numbers -/

/-- The floating-point number that a text means. -/
def float? (s : String) : Option Float :=
  let unsigned := if s.startsWith "+" then (s.drop 1).toString else s
  if s.startsWith "+" && (unsigned.startsWith "+" || unsigned.startsWith "-") then none
  else if unsigned == ".inf" || unsigned == ".Inf" || unsigned == ".INF" then some (1.0 / 0.0)
  else if s == "-.inf" || s == "-.Inf" || s == "-.INF" then some (-1.0 / 0.0)
  else if s == ".nan" || s == ".NaN" || s == ".NAN" then some (0.0 / 0.0)
  else (Decimal.read? unsigned.toList).filter (·.isFinite)

/-! ### Scalars -/

/-- What an integer means; `none` when it is too large to be an integer and too short to be
anything else. The outer `none` says that it is something else. -/
def integerTree? (n : Int) : Option (Option Tree) :=
  if fits64 n then some (some (.number (.integer n)))
  else if fits128 n then some none
  else none

/-- What an unquoted scalar means; `none` when it means nothing. -/
def plainTree? (s : String) : Option Tree :=
  if s == "" || isNull s then some .null
  else
    match bool? s with
    | some b => some (.bool b)
    | none =>
      match (integer? s.toList).bind integerTree? with
      | some tree? => tree?
      | none =>
        let number := if hasLeadingZero (sign s.toList).2 then none else float? s
        match number with
        | some x => some (.number (.float x))
        | none => some (.text s)

/-- What a scalar with a tag means, the tag not being local; `none` when it does not fit the
tag. -/
def taggedTree? (tag : Tag) (s : String) : Option Tree :=
  if tag = .standard "bool" then (bool? s).map .bool
  else if tag = .standard "int" then ((integer? s.toList).bind integerTree?).join
  else if tag = .standard "float" then (float? s).map fun x => .number (.float x)
  else if tag = .standard "null" then if isNull s then some .null else none
  else some (.text s)

end SchemaCompiler.Yaml.Scalar
