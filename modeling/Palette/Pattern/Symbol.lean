import Palette.Pattern.Basic
import Palette.Unicode.Alphabetic
import Palette.Unicode.Numeric

/-!
# Symbols of the pattern notation

The notation is read in two stages. The first, here, cuts it into symbols: literal characters,
shorthands, operators, the parts of bracketed classes and the heads of groups. Inside brackets
other rules hold than outside, so the reader keeps the number of brackets that are open.

Each function reads from the front and returns what is left. A notation that cannot be cut is
refused. Neither look-around nor back-references exist, so what
would begin them is refused here too.

## Termination

Each symbol takes at least one character; `symbols` recurses on the characters left.
-/

namespace Palette.Pattern

/-- A switch of the notation, set by a group or for the rest of one. -/
inductive Switch where
  /-- Letters stand for themselves in either case. -/
  | caseless
  /-- `^` and `$` also hold at the ends of lines. -/
  | multiline
  /-- `.` also reads line feeds. -/
  | dotAll
  /-- Repetitions are lazy, and greedy with a question mark behind them. -/
  | swapGreed
  /-- Classes know all of Unicode, which they always do. -/
  | unicode
  deriving DecidableEq, Repr

/-- An operator between the parts of a bracketed class. -/
inductive ClassOp where
  | inter
  | diff
  | symmDiff
  deriving DecidableEq, Repr

/-- A symbol of the notation. -/
inductive Symbol where
  | literal (c : Char)
  | anyChar
  | shorthand (set : CharSet)
  | caret
  | dollar
  | check (assertion : Assertion)
  | bar
  /-- The head of a group, whether it is numbered, with its name and the switches it sets. -/
  | openGroup (numbered : Bool) (name : Option (List Char)) (switches : List (Switch × Bool))
  | closeGroup
  /-- Switches for the rest of the group. -/
  | switches (switches : List (Switch × Bool))
  | times (least : Nat) (most : Option Nat) (greedy : Bool)
  /-- An opening bracket with the characters that are literal only right behind it. -/
  | openClass (negated : Bool) (literals : List Char)
  | closeClass
  | classOp (op : ClassOp)
  | classItem (set : CharSet)
  deriving DecidableEq, Repr

/-! ## Numbers and characters -/

/-- The value of a hexadecimal digit. -/
def hexDigit? (c : Char) : Option Nat :=
  if '0' ≤ c ∧ c ≤ '9' then some (c.toNat - '0'.toNat)
  else if 'a' ≤ c ∧ c ≤ 'f' then some (c.toNat - 'a'.toNat + 10)
  else if 'A' ≤ c ∧ c ≤ 'F' then some (c.toNat - 'A'.toNat + 10)
  else none

/-- The character whose code point the digits write in hexadecimal. -/
def hexChar? (digits : List Char) : Option Char := do
  let values ← digits.mapM hexDigit?
  guard (!values.isEmpty)
  let n := values.foldl (fun n d => n * 16 + d) 0
  if n.isValidChar then some (Char.ofNat n) else none

/-- A code point of `width` digits, or of any number of them in braces. -/
def readHex (width : Nat) : List Char → Option (Char × List Char)
  | '\x7b' :: rest =>
    match rest.dropWhile (· != '\x7d') with
    | _ :: left => (hexChar? (rest.takeWhile (· != '\x7d'))).map ((·, left))
    | [] => none
  | rest =>
    if rest.length < width then none
    else (hexChar? (rest.take width)).map ((·, rest.drop width))

/-- A decimal number below 2³², with blanks around it. -/
def readCount (cs : List Char) : Option (Nat × List Char) :=
  let cs := cs.dropWhile Unicode.isBlank
  let digits := cs.takeWhile Char.isDigit
  let n := digits.foldl (fun n d => n * 10 + (d.toNat - '0'.toNat)) 0
  if digits.isEmpty || n ≥ UInt32.size then none
  else some (n, (cs.dropWhile Char.isDigit).dropWhile Unicode.isBlank)

/-! ## Escapes -/

/-- What an escape stands for. -/
inductive Escape where
  | literal (c : Char)
  | shorthand (set : CharSet)
  | check (assertion : Assertion)

/-- A word assertion named in braces. -/
def wordAssertion? (name : List Char) : Option Assertion :=
  match String.ofList name with
  | "start" => some .wordStart
  | "end" => some .wordEnd
  | "start-half" => some .wordStartHalf
  | "end-half" => some .wordEndHalf
  | _ => none

/-- The rest of `\b`: braces with letters in them name another word assertion. -/
def readWordBoundary : List Char → Option (Escape × List Char)
  | '\x7b' :: rest =>
    let named (c : Char) : Bool := c.isAlpha || c == '-'
    match rest with
    | [] => none
    | c :: _ =>
      if named c then
        match rest.dropWhile named with
        | '\x7d' :: left =>
          (wordAssertion? (rest.takeWhile named)).map fun a => (.check a, left)
        | _ => none
      else some (.check .wordBoundary, '\x7b' :: rest)
  | rest => some (.check .wordBoundary, rest)

/-- The escape behind a backslash. -/
def readEscape : List Char → Option (Escape × List Char)
  | [] => none
  | c :: rest =>
    match c with
    | 'x' => (readHex 2 rest).map fun (c, left) => (.literal c, left)
    | 'u' => (readHex 4 rest).map fun (c, left) => (.literal c, left)
    | 'U' => (readHex 8 rest).map fun (c, left) => (.literal c, left)
    | 'd' => some (.shorthand .digit, rest)
    | 's' => some (.shorthand .blank, rest)
    | 'w' => some (.shorthand .word, rest)
    | 'D' => some (.shorthand (.compl .digit), rest)
    | 'S' => some (.shorthand (.compl .blank), rest)
    | 'W' => some (.shorthand (.compl .word), rest)
    | 'a' => some (.literal '\x07', rest)
    | 'f' => some (.literal '\x0c', rest)
    | 't' => some (.literal '\t', rest)
    | 'n' => some (.literal '\n', rest)
    | 'r' => some (.literal '\r', rest)
    | 'v' => some (.literal '\x0b', rest)
    | 'A' => some (.check .textStart, rest)
    | 'z' => some (.check .textEnd, rest)
    | 'b' => readWordBoundary rest
    | 'B' => some (.check .notWordBoundary, rest)
    | '<' => some (.check .wordStart, rest)
    | '>' => some (.check .wordEnd, rest)
    | c => if c.toNat < 128 && !c.isAlphanum then some (.literal c, rest) else none

/-! ## Groups and repetitions -/

/-- The switch a letter stands for. -/
def switch? : Char → Option Switch
  | 'i' => some .caseless
  | 'm' => some .multiline
  | 's' => some .dotAll
  | 'U' => some .swapGreed
  | 'u' => some .unicode
  | _ => none

/-- The switches that the letters set, and behind a minus sign unset; none may occur twice. -/
def switches? (seen : List (Switch × Bool)) (value : Bool) :
    List Char → Option (List (Switch × Bool))
  | [] => if !value && seen.all (·.2) then none else some seen
  | '-' :: rest => if value then switches? seen false rest else none
  | c :: rest => do
    let s ← switch? c
    guard (!seen.any (·.1 == s))
    guard (value || s != .unicode)
    switches? (seen ++ [(s, value)]) value rest

/-- Whether the characters may name a group. -/
def isGroupName (name : List Char) : Bool :=
  match name with
  | [] => false
  | c :: rest =>
    (c == '_' || Unicode.isAlphabetic c) && rest.all fun c =>
      Unicode.isAlphabetic c || Unicode.isNumeric c || ['_', '.', '[', ']'].contains c

/-- A group name up to a closing angle bracket. -/
def readGroupName (cs : List Char) : Option (Symbol × List Char) :=
  let name := cs.takeWhile (· != '>')
  match cs.dropWhile (· != '>') with
  | _ :: left => if isGroupName name then some (.openGroup true (some name) [], left) else none
  | [] => none

/-- The head of a group behind its parenthesis. -/
def readGroup : List Char → Option (Symbol × List Char)
  | '?' :: 'P' :: '<' :: rest => readGroupName rest
  | '?' :: '<' :: rest => readGroupName rest
  | '?' :: rest =>
    let letters := rest.takeWhile (fun c => c != ':' && c != ')')
    match rest.dropWhile (fun c => c != ':' && c != ')') with
    | [] => none
    | c :: left => do
      let switches ← switches? [] true letters
      if c == ':' then some (.openGroup false none switches, left)
      else if letters.isEmpty then none
      else some (.switches switches, left)
  | rest => some (.openGroup true none [], rest)

/-- A question mark behind a repetition makes it lazy. -/
def readGreed : List Char → Bool × List Char
  | '?' :: rest => (false, rest)
  | rest => (true, rest)

/-- A repetition with the greed written behind it. -/
def repetition (least : Nat) (most : Option Nat) (rest : List Char) : Option (Symbol × List Char) :=
  let (greedy, left) := readGreed rest
  some (.times least most greedy, left)

/-- The counts of a repetition behind their opening brace. -/
def readCounts (cs : List Char) : Option (Symbol × List Char) := do
  let (least, rest) ← readCount cs
  match rest with
  | '\x7d' :: rest => repetition least (some least) rest
  | ',' :: '\x7d' :: rest => repetition least none rest
  | ',' :: rest =>
    let (most, rest) ← readCount rest
    match rest with
    | '\x7d' :: rest => if least ≤ most then repetition least (some most) rest else none
    | _ => none
  | _ => none

/-- The symbol that starts with `c`, outside brackets. -/
def readOutside (c : Char) (rest : List Char) : Option (Symbol × List Char) :=
  match c with
  | '\\' =>
    (readEscape rest).map fun
      | (.literal c, left) => (.literal c, left)
      | (.shorthand set, left) => (.shorthand set, left)
      | (.check a, left) => (.check a, left)
  | '.' => some (.anyChar, rest)
  | '^' => some (.caret, rest)
  | '$' => some (.dollar, rest)
  | '|' => some (.bar, rest)
  | '(' => readGroup rest
  | ')' => some (.closeGroup, rest)
  | '*' => repetition 0 none rest
  | '+' => repetition 1 none rest
  | '?' => repetition 0 (some 1) rest
  | '\x7b' => readCounts rest
  | c => some (.literal c, rest)

/-! ## Bracketed classes -/

/-- The class with the given name between colons. -/
def namedClass? (name : List Char) : Option CharSet :=
  let lowers := CharSet.range 'a' 'z'
  let uppers := CharSet.range 'A' 'Z'
  let digits := CharSet.range '0' '9'
  let letters := CharSet.union uppers lowers
  let alnums := CharSet.union digits letters
  match String.ofList name with
  | "alnum" => some alnums
  | "alpha" => some letters
  | "ascii" => some (.range '\x00' '\x7f')
  | "blank" => some (.union (.single '\t') (.single ' '))
  | "cntrl" => some (.union (.range '\x00' '\x1f') (.single '\x7f'))
  | "digit" => some digits
  | "graph" => some (.range '!' '~')
  | "lower" => some lowers
  | "print" => some (.range ' ' '~')
  | "punct" => some (.diff (.range '!' '~') alnums)
  | "space" => some (.union (.range '\t' '\r') (.single ' '))
  | "upper" => some uppers
  | "word" => some (.union alnums (.single '_'))
  | "xdigit" => some (.unions [digits, .range 'A' 'F', .range 'a' 'f'])
  | _ => none

/-- A named class behind its opening bracket. -/
def readNamedClass : List Char → Option (Symbol × List Char)
  | ':' :: rest =>
    let negated := rest.head? == some '^'
    let body := if negated then rest.drop 1 else rest
    match body.dropWhile (· != ':') with
    | ':' :: ']' :: left =>
      (namedClass? (body.takeWhile (· != ':'))).map fun set =>
        (.classItem (if negated then .compl set else set), left)
    | _ => none
  | _ => none

/--
An opening bracket: minus signs right behind it are literal, and so is a closing bracket that
comes first of all.
-/
def readOpenClass (rest : List Char) : Option (Symbol × List Char) :=
  let negated := rest.head? == some '^'
  let body := if negated then rest.drop 1 else rest
  let dashes := body.takeWhile (· == '-')
  match dashes, body.dropWhile (· == '-') with
  | [], ']' :: left => some (.openClass negated [']'], left)
  | dashes, left => some (.openClass negated dashes, left)

/-- A character or shorthand inside brackets. -/
def readMember : List Char → Option (Escape × List Char)
  | [] => none
  | '\\' :: rest => readEscape rest
  | c :: rest => some (.literal c, rest)

/-- A member of a class, or a range between two characters. -/
def readRange (cs : List Char) : Option (Symbol × List Char) := do
  let (first, rest) ← readMember cs
  let alone : Option (Symbol × List Char) :=
    match first with
    | .literal c => some (.classItem (.single c), rest)
    | .shorthand set => some (.classItem set, rest)
    | .check _ => none
  match rest with
  | '-' :: ']' :: _ => alone
  | '-' :: '-' :: _ => alone
  | '-' :: after =>
    let (last, left) ← readMember after
    match first, last with
    | .literal a, .literal b => if a ≤ b then some (.classItem (.range a b), left) else none
    | _, _ => none
  | _ => alone

/-- The symbol that starts with `c`, inside brackets. -/
def readInside (c : Char) (rest : List Char) : Option (Symbol × List Char) :=
  match c, rest with
  | '[', rest =>
    match readNamedClass rest with
    | some result => some result
    | none => readOpenClass rest
  | ']', rest => some (.closeClass, rest)
  | '&', '&' :: rest => some (.classOp .inter, rest)
  | '-', '-' :: rest => some (.classOp .diff, rest)
  | '~', '~' :: rest => some (.classOp .symmDiff, rest)
  | c, rest => readRange (c :: rest)

/-! ## The whole notation -/

/-- The symbol that starts with `c`, with `depth` brackets open, and the brackets open after it. -/
def readSymbol (depth : Nat) (c : Char) (rest : List Char) : Option (Symbol × Nat × List Char) :=
  if depth = 0 then
    if c == '[' then (readOpenClass rest).map fun (s, left) => (s, 1, left)
    else (readOutside c rest).map fun (s, left) => (s, 0, left)
  else
    (readInside c rest).map fun (s, left) =>
      match s with
      | .openClass _ _ => (s, depth + 1, left)
      | .closeClass => (s, depth - 1, left)
      | _ => (s, depth, left)

/--
Cuts the notation into symbols. No symbol gives characters back; the check makes that evident.
-/
def symbols (depth : Nat) (cs : List Char) : Option (List Symbol) :=
  match cs with
  | [] => some []
  | c :: rest =>
    match readSymbol depth c rest with
    | none => none
    | some (s, depth, left) =>
      if left.length ≤ rest.length then (symbols depth left).map (s :: ·) else none
termination_by cs.length

end Palette.Pattern
