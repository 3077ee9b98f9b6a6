/-!
# Shortest decimals

A floating-point number stands for all the reals that round to it, an interval around its value.
Its shortest decimal is the one with the fewest digits in that interval and, among those, the one
nearest to the value; of two equally near ones, the larger.

With `n` digits, the decimals around a value lie on a grid. If any point of the grid is in the
interval, one of the value's two neighbours on the grid is, so `shortest` looks at these two for
one digit, two digits, and so on. Seventeen digits always suffice for 53 significant bits.

All arithmetic is exact: a value is a fraction of natural numbers.
-/

namespace Palette

/-- A decimal: `digits · 10 ^ exponent`. -/
structure Decimal where
  digits : Nat
  exponent : Int
  deriving DecidableEq, Repr

namespace Decimal

/-- A number with the interval of reals that round to it, over a common denominator. -/
structure Interval where
  low : Nat
  value : Nat
  high : Nat
  denominator : Nat
  /-- Whether the ends of the interval belong to it. -/
  closed : Bool

/--
The reals that round to `significand · 2 ^ exponent`. The numbers next to it are one unit of
the significand away, except that below a power of two, marked by `narrowBelow`, they are twice as
dense. The ends round to even significands.
-/
def Interval.around (significand : Nat) (exponent : Int) (narrowBelow : Bool) : Interval :=
  let scale := Nat.pow 2 (exponent - 2).toNat
  { low := (4 * significand - (if narrowBelow then 1 else 2)) * scale,
    value := 4 * significand * scale,
    high := (4 * significand + 2) * scale,
    denominator := Nat.pow 2 (2 - exponent).toNat,
    closed := significand % 2 == 0 }

/-- The exponent of the leading decimal digit of a positive fraction above `10 ^ (-400)`. -/
def leadingExponent (numerator denominator : Nat) : Int :=
  ((Nat.toDigits 10 (numerator * Nat.pow 10 400 / denominator)).length : Int) - 401

/-- The interval with everything divided by `10 ^ exponent`. -/
def Interval.shift (i : Interval) (exponent : Int) : Interval :=
  let up := Nat.pow 10 (-exponent).toNat
  { i with low := i.low * up, value := i.value * up, high := i.high * up,
           denominator := i.denominator * Nat.pow 10 exponent.toNat }

/-- Whether a whole number lies in the interval. -/
def Interval.holds (i : Interval) (n : Nat) : Bool :=
  let x := n * i.denominator
  if i.closed then i.low ≤ x && x ≤ i.high else i.low < x && x < i.high

/-- The whole number in the interval next to the value, if there is one. -/
def Interval.nearest? (i : Interval) : Option Nat :=
  let below := i.value / i.denominator
  let remainder := i.value % i.denominator
  match i.holds below, i.holds (below + 1) with
  | true, true => some (if 2 * remainder < i.denominator then below else below + 1)
  | true, false => some below
  | false, true => some (below + 1)
  | false, false => none

/-- The shortest decimal in the interval, tried with `width` digits and then with more. -/
def shortestFrom (i : Interval) (leading : Int) : (tries width : Nat) → Decimal
  | 0, width =>
    let exponent := leading - width + 1
    ⟨(i.shift exponent).value / (i.shift exponent).denominator, exponent⟩
  | tries + 1, width =>
    let exponent := leading - width + 1
    match (i.shift exponent).nearest? with
    | some digits => ⟨digits, exponent⟩
    | none => shortestFrom i leading tries (width + 1)

/-- The shortest decimal that stands for `significand · 2 ^ exponent`. -/
def shortest (significand : Nat) (exponent : Int) (narrowBelow : Bool) : Decimal :=
  let i := Interval.around significand exponent narrowBelow
  shortestFrom i (leadingExponent i.value i.denominator) 17 1

end Decimal

end Palette
