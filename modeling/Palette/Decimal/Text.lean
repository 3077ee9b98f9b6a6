import Palette.Decimal.Binary64

/-!
# Numbers as text

Two formats show a number with its shortest decimal. `plain` is always positional: the digits of
a large number are followed by zeros up to the point, those of a small one preceded by them, and
whole numbers have no point. `described` marks numbers as such: whole ones get one zero behind
the point, and below `10 ^ (-4)` and from `10 ^ 16` on an exponent is used.
-/

namespace Palette.Decimal

/-- The significant digits, without zeros at the end, and the exponent of the last of them. -/
def significant (d : Decimal) : List Char × Int :=
  let digits := (Nat.toDigits 10 d.digits).reverse
  let zeros := digits.takeWhile (· == '0')
  ((digits.dropWhile (· == '0')).reverse, d.exponent + zeros.length)

/-- The digits with a point where it belongs, and zeros up to it. -/
def positional (d : Decimal) : List Char :=
  let (digits, exponent) := significant d
  if 0 ≤ exponent then digits ++ List.replicate exponent.toNat '0'
  else
    let places := (-exponent).toNat
    if places < digits.length then
      digits.take (digits.length - places) ++ '.' :: digits.drop (digits.length - places)
    else '0' :: '.' :: (List.replicate (places - digits.length) '0' ++ digits)

/-- The digits with a point behind the first and an exponent behind the last. -/
def scientific (d : Decimal) : List Char :=
  let (digits, exponent) := significant d
  let leading := exponent + digits.length - 1
  digits.take 1 ++ (if digits.length > 1 then '.' :: digits.drop 1 else []) ++
    'e' :: (toString leading).toList

/-- The text with a minus sign in front. -/
def signed (negative : Bool) (text : List Char) : String :=
  String.ofList (if negative then '-' :: text else text)

/-- The number as an answer. -/
def plain (x : Float) : String :=
  match partsOf x with
  | .nan => "NaN"
  | .infinity negative => signed negative ['i', 'n', 'f']
  | .zero negative => signed negative ['0']
  | .finite negative d => signed negative (positional d)

/-- The number as part of a description. -/
def described (x : Float) : String :=
  match partsOf x with
  | .nan => "NaN"
  | .infinity negative => signed negative ['i', 'n', 'f']
  | .zero negative => signed negative ['0', '.', '0']
  | .finite negative d =>
    let (digits, exponent) := significant d
    let leading := exponent + digits.length - 1
    signed negative <|
      if leading < -4 || 16 ≤ leading then scientific d
      else if 0 ≤ exponent then positional d ++ ['.', '0']
      else positional d

end Palette.Decimal
