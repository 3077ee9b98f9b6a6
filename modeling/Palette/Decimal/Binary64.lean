import Palette.Decimal.Shortest

/-!
# Floating-point numbers and decimals

A finite number of 64 bits is a sign, a significand and an exponent of two. Here are the two ways
between such numbers and decimals: the shortest decimal of a number, and the number nearest to a
decimal, where a tie goes to the even significand.

A decimal is read as an optional sign, digits with an optional point among or before or behind
them, and an optional exponent. The names of the infinities and of what is no number are read in
either case.
-/

namespace Palette.Decimal

/-! ## From numbers to decimals -/

/-- What the bits of a number stand for. -/
inductive Parts where
  | nan
  | infinity (negative : Bool)
  | zero (negative : Bool)
  /-- A number that has a shortest decimal. -/
  | finite (negative : Bool) (decimal : Decimal)

/-- The lowest bit of the exponent, which leading bits of significands stand at: 2⁵². -/
def exponentBit : Nat := 0x10000000000000

/-- The bit of the sign: 2⁶³. -/
def signBit : Nat := 0x8000000000000000

/-- The bits of positive infinity. -/
def infinityBits : Nat := 2047 * exponentBit

/-- The parts of a number given by its bits. -/
def partsOfBits (bits : Nat) : Parts :=
  let negative := bits / signBit % 2 == 1
  let field : Nat := bits / exponentBit % 2048
  let fraction : Nat := bits % exponentBit
  if field = 2047 then if fraction = 0 then .infinity negative else .nan
  else if field = 0 then
    if fraction = 0 then .zero negative
    else .finite negative (shortest fraction (-1074) false)
  else
    .finite negative
      (shortest (exponentBit + fraction) ((field : Int) - 1075) (fraction == 0 && field != 1))

/-- The parts of a number. -/
def partsOf (x : Float) : Parts := partsOfBits x.toBits.toNat

/-! ## From decimals to numbers -/

/-- The quotient rounded to a whole number, a half to the even one. -/
def roundDiv (numerator denominator : Nat) : Nat :=
  let q := numerator / denominator
  let r := numerator % denominator
  if 2 * r < denominator then q
  else if 2 * r = denominator then q + q % 2
  else q + 1

/--
The bits of the number nearest to a positive fraction. Adding the significand to the shifted
exponent carries into the exponent when rounding reaches the next power of two.
-/
def nearestBits (numerator denominator : Nat) : Nat :=
  let scaled (exponent : Int) : Nat × Nat :=
    (numerator * Nat.pow 2 (-exponent).toNat, denominator * Nat.pow 2 exponent.toNat)
  let guess := max (-1074) ((numerator.log2 : Int) - denominator.log2 - 52)
  let (n, d) := scaled guess
  let exponent := if n / d < exponentBit && guess > -1074 then guess - 1 else guess
  let (n, d) := scaled exponent
  min ((exponent + 1074).toNat * exponentBit + roundDiv n d) infinityBits

/-- The number with the given magnitude bits and sign. -/
def ofMagnitude (negative : Bool) (bits : Nat) : Float :=
  Float.ofBits (UInt64.ofNat (if negative then bits + signBit else bits))

/-- The number nearest to `digits · 10 ^ exponent`. -/
def toFloat (negative : Bool) (d : Decimal) : Float :=
  let width : Int := (Nat.toDigits 10 d.digits).length
  ofMagnitude negative <|
    if d.digits = 0 || width + d.exponent < -330 then 0
    else if width + d.exponent > 310 then infinityBits
    else nearestBits (d.digits * Nat.pow 10 d.exponent.toNat) (Nat.pow 10 (-d.exponent).toNat)

/-- The value of decimal digits. -/
def digitsValue (digits : List Char) : Nat :=
  digits.foldl (fun n c => n * 10 + (c.toNat - '0'.toNat)) 0

/-- A sign, if there is one, and what follows it. -/
def readSign : List Char → Bool × List Char
  | '-' :: rest => (true, rest)
  | '+' :: rest => (false, rest)
  | rest => (false, rest)

/-- The value of an exponent, to the end of the text. -/
def readExponent? : List Char → Option Int
  | [] => some 0
  | c :: rest =>
    if c == 'e' || c == 'E' then
      let (negative, digits) := readSign rest
      if digits.isEmpty || !digits.all Char.isDigit then none
      else some (if negative then -(digitsValue digits : Int) else digitsValue digits)
    else none

/-- The decimal that the text writes without a sign. -/
def readUnsigned? (cs : List Char) : Option Decimal :=
  let whole := cs.takeWhile Char.isDigit
  let (fraction, rest) : List Char × List Char :=
    match cs.dropWhile Char.isDigit with
    | '.' :: rest => (rest.takeWhile Char.isDigit, rest.dropWhile Char.isDigit)
    | rest => ([], rest)
  if whole.isEmpty && fraction.isEmpty then none
  else
    (readExponent? rest).map fun exponent =>
      ⟨digitsValue (whole ++ fraction), exponent - fraction.length⟩

/-- Reads a number. -/
def read? (text : String) : Option Float :=
  let (negative, cs) := readSign text.toList
  match String.ofList (cs.map Char.toLower) with
  | "inf" | "infinity" => some (ofMagnitude negative infinityBits)
  | "nan" => some (0.0 / 0.0)
  | _ => (readUnsigned? cs).map (toFloat negative)

end Palette.Decimal
