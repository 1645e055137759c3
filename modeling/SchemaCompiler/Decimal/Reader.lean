/-!
# Reading decimal numbers

`Decimal.read?` reads a whole text as a decimal number: an optional sign, digits with an optional
point among, before or after them, and an optional exponent. There must be a digit before the
exponent. The value is the floating-point number nearest the decimal, which is infinite when the
decimal is too large.
-/

namespace SchemaCompiler.Decimal

/-- The value of a list of digits. -/
def digitsValue (digits : List Char) : Nat :=
  digits.foldl (fun value c => 10 * value + (c.toNat - '0'.toNat)) 0

/-- The floating-point number nearest `digits · 10 ^ exponent`. Exponents that are far out of
range are settled without computing the power. -/
def nearestFloat (digits : Nat) (exponent : Int) : Float :=
  if digits = 0 then 0.0
  else
    let lead : Int := exponent + (Nat.toDigits 10 digits).length
    if 310 < lead then 1.0 / 0.0
    else if lead < -330 then 0.0
    else Float.ofScientific digits (exponent < 0) exponent.natAbs

/-- An optional sign and what follows it; the flag tells whether the sign is a minus. -/
def readSign : List Char → Bool × List Char
  | '-' :: rest => (true, rest)
  | '+' :: rest => (false, rest)
  | cs => (false, cs)

/-- An exponent that ends the text: nothing, or `e` with an optional sign and digits. -/
def readExponent? : List Char → Option Int
  | [] => some 0
  | c :: rest =>
    if c = 'e' || c = 'E' then
      let (negative, digits) := readSign rest
      if !digits.isEmpty && digits.all Char.isDigit then
        let value : Int := digitsValue digits
        some (if negative then -value else value)
      else none
    else none

/-- A whole text as a decimal number. -/
def read? (cs : List Char) : Option Float :=
  let (negative, cs) := readSign cs
  let whole := cs.takeWhile Char.isDigit
  let (fraction, rest) :=
    match cs.dropWhile Char.isDigit with
    | '.' :: rest => (rest.takeWhile Char.isDigit, rest.dropWhile Char.isDigit)
    | rest => ([], rest)
  if whole.isEmpty && fraction.isEmpty then none
  else
    (readExponent? rest).map fun exponent =>
      let magnitude := nearestFloat (digitsValue (whole ++ fraction)) (exponent - fraction.length)
      if negative then -magnitude else magnitude

end SchemaCompiler.Decimal
