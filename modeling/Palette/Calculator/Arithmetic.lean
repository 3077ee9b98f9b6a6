import Palette.Decimal.Binary64

/-!
# Arithmetic for the calculator

The calculator computes with whatever numbers it is given the operations of, so what it makes of
an expression can be told apart from how the numbers round.
-/

namespace Palette.Calculator

/-- The operations of the calculator on numbers of type `α`. -/
structure Arithmetic (α : Type) where
  add : α → α → α
  subtract : α → α → α
  multiply : α → α → α
  divide : α → α → α
  power : α → α → α
  negate : α → α
  /-- The number written in decimal digits. -/
  literal : String → α
  /-- The number with the given name. -/
  constant : String → α

/-- What is no number. -/
def undefinedNumber : Float := 0.0 / 0.0

/-- The named constants. -/
def namedConstant : String → Float
  | "pi" => 3.141592653589793
  | "tau" => 6.283185307179586
  | "e" => 2.718281828459045
  | _ => undefinedNumber

/-- Arithmetic on floating-point numbers. -/
def Arithmetic.float : Arithmetic Float where
  add x y := x + y
  subtract x y := x - y
  multiply x y := x * y
  divide x y := x / y
  power x y := x.pow y
  negate x := -x
  literal text := (Decimal.read? text).getD undefinedNumber
  constant := namedConstant

end Palette.Calculator
