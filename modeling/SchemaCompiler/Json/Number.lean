import SchemaCompiler.Decimal.Reader
import SchemaCompiler.Tree.Basic

/-!
# Numbers in JSON texts

`NumberText.read` takes the longest number off the front of a text, and `NumberText.value?` gives
its value. An integer that fits 64 bits, with or without sign, keeps its value; every other number
is a floating-point number, and so is `-0`.

## The model

The digits of a number are collected in a 64-bit significand. Digits that no longer fit are
dropped, and those before the point then count for the exponent. The floating-point value is the
significand times or divided by one power of ten, so it is rounded twice and need not be the
number nearest the decimal. A value that becomes infinite is out of range.
-/

namespace SchemaCompiler

/-- The parts of a number as written. -/
structure NumberText where
  /-- Whether a minus sign stands in front. -/
  negative : Bool
  /-- The digits before the point. -/
  whole : List Char
  /-- The digits after the point; there are none if there is no point. -/
  fraction : List Char
  /-- Whether the exponent is negative, and its digits. -/
  exponent : Option (Bool × List Char)
  deriving DecidableEq, Repr

namespace NumberText

/-- The fault of a number that lacks a digit at the front of `rest`. -/
def missingDigit : List Char → SyntaxFault
  | [] => .endInValue
  | _ :: _ => .invalidNumber

/-- The exponent at the front of a text, if one starts there. -/
def readExponent : List Char → Except SyntaxFault (Option (Bool × List Char) × List Char)
  | c :: rest =>
    if c = 'e' || c = 'E' then
      let (negative, rest) := Decimal.readSign rest
      let digits := rest.takeWhile Char.isDigit
      let rest := rest.dropWhile Char.isDigit
      if digits.isEmpty then .error (missingDigit rest) else .ok (some (negative, digits), rest)
    else .ok (none, c :: rest)
  | [] => .ok (none, [])

/-- The fraction and exponent at the front of a text. -/
def readTail (negative : Bool) (whole : List Char) :
    List Char → Except SyntaxFault (NumberText × List Char)
  | '.' :: rest =>
    let fraction := rest.takeWhile Char.isDigit
    let rest := rest.dropWhile Char.isDigit
    if fraction.isEmpty then .error (missingDigit rest)
    else
      (readExponent rest).map fun (exponent, rest) =>
        (⟨negative, whole, fraction, exponent⟩, rest)
  | rest =>
    (readExponent rest).map fun (exponent, rest) => (⟨negative, whole, [], exponent⟩, rest)

/-- The number at the front of a text whose sign has been taken off. A number has no needless
zero in front. -/
def readUnsigned (negative : Bool) : List Char → Except SyntaxFault (NumberText × List Char)
  | '0' :: rest =>
    match rest with
    | c :: _ => if c.isDigit then .error .invalidNumber else readTail negative ['0'] rest
    | [] => readTail negative ['0'] rest
  | rest =>
    let whole := rest.takeWhile Char.isDigit
    if whole.isEmpty then .error (missingDigit rest)
    else readTail negative whole (rest.dropWhile Char.isDigit)

/-- The number at the front of a text and what follows it. -/
def read : List Char → Except SyntaxFault (NumberText × List Char)
  | '-' :: rest => readUnsigned true rest
  | rest => readUnsigned false rest

/-! ### Values -/

/-- The greatest significand. -/
def maxSignificand : Nat := Nat.pow 2 64 - 1

/-- Appends digits to a significand as long as it fits, and counts the digits appended. -/
def collect (significand : Nat) : List Char → Nat × Nat
  | [] => (significand, 0)
  | c :: digits =>
    let next := 10 * significand + (c.toNat - '0'.toNat)
    if maxSignificand < next then (significand, 0)
    else
      let (value, count) := collect next digits
      (value, count + 1)

/-- Scales a floating-point number by a power of ten; `none` when it becomes infinite. The
bound is on the number of divisions by the greatest power. -/
def scale : Nat → Float → Int → Option Float
  | bound, x, exponent =>
    if exponent.natAbs ≤ 308 then
      let power := Float.ofScientific 1 false exponent.natAbs
      if exponent < 0 then some (x / power)
      else if (x * power).isInf then none
      else some (x * power)
    else if x == 0.0 then some x
    else if 0 < exponent then none
    else
      match bound with
      | 0 => some 0.0
      | bound + 1 => scale bound (x / Float.ofScientific 1 false 308) (exponent + 308)

/-- The greatest exponent that is taken as written. -/
def maxExponent : Nat := Nat.pow 2 31 - 1

/-- The magnitude of a number with a fraction, an exponent or too many digits. -/
def magnitude? (significand : Nat) (shift : Int) : Option (Bool × List Char) → Option Float
  | none => scale 4 significand.toUInt64.toFloat shift
  | some (negative, digits) =>
    let size := Decimal.digitsValue digits
    if maxExponent < size then
      if significand = 0 || negative then some 0.0 else none
    else
      scale 4 significand.toUInt64.toFloat (if negative then shift - size else shift + size)

/-- The value of a number; `none` when it is out of range. -/
def value? (number : NumberText) : Option Number :=
  let (significand, kept) := collect 0 number.whole
  let dropped := number.whole.length - kept
  if number.fraction.isEmpty && number.exponent.isNone && dropped = 0 then
    if !number.negative then some (.integer significand)
    else if significand = 0 then some (.float (-0.0))
    else if significand ≤ Nat.pow 2 63 then some (.integer (-significand))
    else some (.float (-significand.toUInt64.toFloat))
  else
    let (significand, places) := collect significand number.fraction
    (magnitude? significand (dropped - places) number.exponent).map fun x =>
      .float (if number.negative then -x else x)

end NumberText

end SchemaCompiler
