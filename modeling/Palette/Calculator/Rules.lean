import Palette.Calculator.Arithmetic
import Palette.Calculator.Tokens
import Palette.Grammar.Parser

/-!
# The rules of the calculator

Sums are made of products, products of signed numbers, signed numbers of powers, and powers of
primary expressions. Sums and products are read from left to right; the exponent of a power may
have a sign and be a power itself, so powers are read from right to left, and a sign in front of
a power applies to all of it.
-/

namespace Palette.Calculator

open Body

variable {α : Type}

/-- The value of two numbers joined by the operator `op`. -/
def Arithmetic.addOrSubtract (a : Arithmetic α) (op : Token) (x y : α) : α :=
  if op.kind == plus then a.add x y else a.subtract x y

/-- The value of two numbers joined by the operator `op`. -/
def Arithmetic.multiplyOrDivide (a : Arithmetic α) (op : Token) (x y : α) : α :=
  if op.kind == star then a.multiply x y else a.divide x y

/-- A whole expression. -/
def expressionRule : RuleDef α := { name := "expression", body := call "additive" }

/-- Products that are added and subtracted. -/
def additiveRule (a : Arithmetic α) : RuleDef α where
  name := "additive"
  body := do
    let first ← call "multiplicative"
    loop 0 first fun value => do
      let op ← take additive
      let operand ← call "multiplicative"
      return a.addOrSubtract op value operand

/-- Signed numbers that are multiplied and divided. -/
def multiplicativeRule (a : Arithmetic α) : RuleDef α where
  name := "multiplicative"
  body := do
    let first ← call "unary"
    loop 0 first fun value => do
      let op ← take multiplicative
      let operand ← call "unary"
      return a.multiplyOrDivide op value operand

/-- A power with any number of signs. -/
def unaryRule [Inhabited α] (a : Arithmetic α) : RuleDef α where
  name := "unary"
  body :=
    oneOf 0 default
      [do
        let _ ← take minus
        return a.negate (← call "unary"),
      call "power"]

/-- A primary expression with an exponent, if there is one. -/
def powerRule (a : Arithmetic α) : RuleDef α where
  name := "power"
  body := do
    let base ← call "primary"
    let exponent ← perhaps 0 do
      let _ ← take caret
      call "unary"
    return exponent.elim base (a.power base)

/-- A number, a constant, or an expression in parentheses. -/
def primaryRule [Inhabited α] (a : Arithmetic α) : RuleDef α where
  name := "primary"
  body :=
    oneOf 0 default
      [do return a.literal (← take number).image,
      do return a.constant (← take constant).image,
      do
        let _ ← take openParen
        let value ← call "expression"
        let _ ← take closeParen
        return value]

/-- All rules; a text is an expression. -/
def rules [Inhabited α] (a : Arithmetic α) : List (RuleDef α) :=
  [expressionRule, additiveRule a, multiplicativeRule a, unaryRule a, powerRule a, primaryRule a]

/-- Why there is no calculator. -/
inductive SetupError where
  | vocabulary (error : VocabularyError)
  | grammar (error : GrammarError)

/-- The line by which the failure is reported. -/
def SetupError.message : SetupError → String
  | vocabulary e => e.message
  | grammar e => e.message

/-- The calculator. -/
def parser [Inhabited α] (a : Arithmetic α) (config : ParserConfig) :
    Except SetupError (Parser α) :=
  match vocabulary with
  | .error e => .error (.vocabulary e)
  | .ok v =>
    match GrammarDef.analyse { vocabulary := v, rules := rules a } config with
    | .error e => .error (.grammar e)
    | .ok p => .ok p

end Palette.Calculator
