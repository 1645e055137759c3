import SchemaCompiler.Decimal.Shortest

/-!
# Texts of floating-point numbers

Every text of a floating-point number has the digits of its shortest decimal; what differs from
one place to another is how they are laid out. A `Layout` records those decisions: from which
size on a number is written with an exponent, whether a positive exponent has a sign, and which
of two equally near decimals is taken. A number without an exponent always has a point.
-/

namespace SchemaCompiler

namespace Decimal

/-- How the digits of a number are laid out. -/
structure Layout where
  /-- The least and the greatest exponent of a leading digit that is written without an
  exponent; with no bounds none is ever written. -/
  positional : Option (Int × Int)
  /-- Whether a positive exponent is written with a plus sign. -/
  plusSign : Bool
  /-- Which of two equally near decimals is taken. -/
  tie : Tie
  deriving DecidableEq, Repr

/-- Numbers inside JSON texts: an exponent below `1e-5` and from `1e+16` on. -/
def Layout.json : Layout := ⟨some (-5, 15), true, .even⟩

/-- Numbers in the outline: an exponent below `1e-4` and from `1e16` on. -/
def Layout.outline : Layout := ⟨some (-4, 15), false, .up⟩

/-- Numbers that are keys of a YAML map. -/
def Layout.yamlKey : Layout := ⟨some (-5, 15), false, .even⟩

/-- Numbers written out in full, whatever their size. -/
def Layout.full : Layout := ⟨none, false, .up⟩

/-- The digits with a point and without an exponent. -/
def positionalText (digits : List Char) (lead : Int) : List Char :=
  if lead < 0 then
    ['0', '.'] ++ List.replicate (-lead - 1).toNat '0' ++ digits
  else
    let whole := lead.toNat + 1
    digits.take whole ++ List.replicate (whole - digits.length) '0' ++ ['.'] ++
      (if digits.length ≤ whole then ['0'] else digits.drop whole)

/-- The digits with an exponent. -/
def exponentText (plusSign : Bool) (digits : List Char) (lead : Int) : List Char :=
  digits.take 1 ++ (if digits.length ≤ 1 then [] else '.' :: digits.drop 1) ++ ['e'] ++
    (if lead < 0 then ['-'] else if plusSign then ['+'] else []) ++
    Nat.toDigits 10 lead.natAbs

/-- The text of a decimal. -/
def render (layout : Layout) (d : Decimal) : List Char :=
  let digits := Nat.toDigits 10 d.significand
  let lead : Int := d.exponent + digits.length - 1
  match layout.positional with
  | none => positionalText digits lead
  | some (least, greatest) =>
    if least ≤ lead && lead ≤ greatest then positionalText digits lead
    else exponentText layout.plusSign digits lead

end Decimal

/-- The text of a floating-point number. Infinities are `inf` with their sign, and a number that
is none is `NaN`. -/
def floatText (layout : Decimal.Layout) (x : Float) : String :=
  if x.isNaN then "NaN"
  else
    let sign := if x.toBits.toNat < Nat.pow 2 63 then [] else ['-']
    let magnitude :=
      if x.isInf then ['i', 'n', 'f']
      else if x == 0.0 then ['0', '.', '0']
      else Decimal.render layout (Decimal.shortest layout.tie (.ofFloat x))
    .ofList (sign ++ magnitude)

end SchemaCompiler
