/-!
# The shortest decimal of a floating-point number

A floating-point number stands for every real number that rounds to it. `shortest` picks, of the
decimals in that interval, one with the fewest digits, and of those the one nearest the number.

## The model

A positive finite number is a whole multiple of a power of two (`Binary`). The reals that round
to it reach half a unit to either side, or a quarter unit downwards where the numbers below lie
twice as close; the ends belong to the interval when the significand is even. For 1, 2, … digits
the two neighbours of the number on the grid of that many digits are tested, in exact arithmetic
on natural numbers, and the first grid with a hit decides. Seventeen digits always suffice.
-/

namespace SchemaCompiler

/-- The positive number `significand · 10 ^ exponent`. -/
structure Decimal where
  /-- The digits, read as one natural number. -/
  significand : Nat
  /-- The power of ten. -/
  exponent : Int
  deriving DecidableEq, Repr, Inhabited

namespace Decimal

/-- The positive number `significand · 2 ^ exponent`, together with its neighbourhood. -/
structure Binary where
  /-- The significand. -/
  significand : Nat
  /-- The power of two. -/
  exponent : Int
  /-- Whether the next smaller number is only half a unit away. -/
  closeBelow : Bool
  deriving DecidableEq, Repr

/-- The magnitude of a finite floating-point number, from its 64 bits. -/
def Binary.ofFloat (x : Float) : Binary :=
  let bits := x.toBits.toNat
  let fraction := bits % Nat.pow 2 52
  let scale := bits / Nat.pow 2 52 % Nat.pow 2 11
  { significand := if scale = 0 then fraction else fraction + Nat.pow 2 52
    exponent := (max scale 1 : Nat) - 1075
    closeBelow := fraction = 0 && 1 < scale }

/-- Which of two equally near decimals is taken. -/
inductive Tie where
  /-- The one whose last digit is even. -/
  | even
  /-- The larger one. -/
  | up
  deriving DecidableEq, Repr

namespace Binary

/-- `n` quarter units, as a numerator over `gridDenominator` steps of `10 ^ exponent`. -/
def gridNumerator (b : Binary) (exponent : Int) (n : Nat) : Nat :=
  n * Nat.pow 2 (b.exponent - 2).toNat * Nat.pow 10 (-exponent).toNat

/-- The denominator that goes with `gridNumerator`. -/
def gridDenominator (b : Binary) (exponent : Int) : Nat :=
  Nat.pow 2 (2 - b.exponent).toNat * Nat.pow 10 exponent.toNat

/-- Whether `n · 10 ^ exponent` rounds to the number. -/
def covers (b : Binary) (exponent : Int) (n : Nat) : Bool :=
  let point := n * b.gridDenominator exponent
  let low := b.gridNumerator exponent (4 * b.significand - if b.closeBelow then 1 else 2)
  let high := b.gridNumerator exponent (4 * b.significand + 2)
  if b.significand % 2 = 0 then low ≤ point && point ≤ high else low < point && point < high

/-- The point of the grid `10 ^ exponent` nearest the number, if it rounds to the number. -/
def nearestOnGrid (b : Binary) (tie : Tie) (exponent : Int) : Option Nat :=
  let value := b.gridNumerator exponent (4 * b.significand)
  let step := b.gridDenominator exponent
  let below := value / step
  match b.covers exponent below, b.covers exponent (below + 1) with
  | true, true =>
    let left := value - below * step
    let right := (below + 1) * step - value
    if left < right then some below
    else if right < left then some (below + 1)
    else if tie = .even && below % 2 = 0 then some below
    else some (below + 1)
  | true, false => some below
  | false, true => some (below + 1)
  | false, false => none

/-- The decimal exponent of the number's leading digit. -/
def leadingExponent (b : Binary) : Int :=
  let shifted :=
    b.significand * Nat.pow 2 b.exponent.toNat * Nat.pow 10 400 / Nat.pow 2 (-b.exponent).toNat
  ((Nat.toDigits 10 shifted).length : Int) - 401

end Binary

/-- Drops the zeros at the end of a significand. The bound is on their number. -/
def trim : Nat → Decimal → Decimal
  | 0, d => d
  | bound + 1, d =>
    if d.significand ≠ 0 ∧ d.significand % 10 = 0 then
      trim bound ⟨d.significand / 10, d.exponent + 1⟩
    else d

/-- The shortest decimal that rounds to a positive number; of several the nearest. -/
def shortest (tie : Tie) (b : Binary) : Decimal :=
  let lead := b.leadingExponent
  let hit := (List.range 17).findSome? fun (further : Nat) =>
    let exponent := lead - further
    (b.nearestOnGrid tie exponent).map fun n => trim 20 ⟨n, exponent⟩
  hit.getD ⟨0, 0⟩

example : shortest .even (.ofFloat 0.1) = ⟨1, -1⟩ := by decide +kernel
example : shortest .even (.ofFloat 100.0) = ⟨1, 2⟩ := by decide +kernel

end Decimal

end SchemaCompiler
