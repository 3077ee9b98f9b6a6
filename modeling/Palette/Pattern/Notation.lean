import Palette.Pattern.Symbol
import Palette.Pattern.Weight

/-!
# The pattern notation

The second stage of reading puts the symbols of a notation together. Each open group has a frame
with the branches finished so far, the pieces of the branch under way and the switches in force;
each open bracket has a frame of its own. A closing symbol turns its frame into one piece of the
frame around it.

Letters are folded where they occur, bracketed classes as a whole and before they are negated.
Shorthands outside brackets are never folded.

Two limits keep what is read within bounds. Groups, repetitions, brackets, sequences, alternations
and the parts of a class each nest what they hold one level deeper, and no notation may nest more
than `maxNesting` levels. And a pattern may not be heavier than `maxWeight`.
-/

namespace Palette.Pattern

/-- The switches that are on. -/
abbrev Switches := List Switch

/-- The switches after some were set and others unset. -/
def Switches.apply (on : Switches) (changes : List (Switch × Bool)) : Switches :=
  changes.foldl (fun on (s, value) => if value then s :: on else on.filter (· != s)) on

/-- Something read, with the number of levels nested in its notation. -/
structure Nested (α : Type) where
  value : α
  levels : Nat

namespace Nested

/-- Several things side by side are a level around the deepest of them; one alone is none. -/
def levelsOf {α : Type} : List (Nested α) → Nat
  | [] => 0
  | [x] => x.levels
  | xs => (xs.map levels).foldl max 0 + 1

/-- Several things side by side, combined into one. -/
def combine {α : Type} (f : List α → α) (xs : List (Nested α)) : Nested α :=
  ⟨f (xs.map value), levelsOf xs⟩

/-- The same thing with a level around it. -/
def deeper {α β : Type} (f : α → β) (x : Nested α) : Nested β := ⟨f x.value, x.levels + 1⟩

end Nested

/-- The greatest number of levels in a notation. -/
def maxNesting : Nat := 250

/-- A group under construction. -/
structure GroupFrame where
  /-- The number of the group; a group that has none leaves no trace in the pattern. -/
  number : Option Nat
  switches : Switches
  /-- The finished branches, the latest first. -/
  branches : List (Nested Pattern)
  /-- The pieces of the branch under way, the latest first. -/
  pieces : List (Nested Pattern)
  /-- Whether the last thing read can be repeated. -/
  repeatable : Bool

namespace GroupFrame

/-- A group without any pieces. -/
def start (number : Option Nat) (switches : Switches) : GroupFrame :=
  { number, switches, branches := [], pieces := [], repeatable := false }

/-- The group with one more piece. -/
def push (f : GroupFrame) (p : Nested Pattern) : GroupFrame :=
  { f with pieces := p :: f.pieces, repeatable := true }

/-- The group with its branch finished and another one begun. -/
def branch (f : GroupFrame) : GroupFrame :=
  { f with
    branches := .combine seqs f.pieces.reverse :: f.branches, pieces := [], repeatable := false }

/-- What is inside the group. -/
def inside (f : GroupFrame) : Nested Pattern := .combine alts f.branch.branches.reverse

/-- The group as one piece. -/
def finish (f : GroupFrame) : Nested Pattern :=
  f.inside.deeper fun p =>
    match f.number with
    | some number => .group number p
    | none => p

/-- The set as letters of either case, if the switches say so. -/
def fold (f : GroupFrame) (set : CharSet) : CharSet :=
  if f.switches.contains .caseless then .folded set else set

end GroupFrame

/-- What the operator makes of the parts on both sides of it. -/
def ClassOp.apply : ClassOp → CharSet → CharSet → CharSet
  | .inter => .inter
  | .diff => .diff
  | .symmDiff => .symmDiff

/-- A bracketed class under construction. -/
structure ClassFrame where
  negated : Bool
  /-- The operand and operator before the part under way. -/
  pending : Option (Nested CharSet × ClassOp)
  /-- The members of the part under way, the latest first. -/
  members : List (Nested CharSet)

namespace ClassFrame

/-- An open bracket with the characters read so far. -/
def start (negated : Bool) (literals : List Char) : ClassFrame :=
  { negated, pending := none, members := literals.map fun c => ⟨.single c, 0⟩ }

/-- The class with one more member. -/
def push (f : ClassFrame) (set : Nested CharSet) : ClassFrame :=
  { f with members := set :: f.members }

/-- What was read so far as one set. -/
def combine (f : ClassFrame) (fold : CharSet → CharSet) : Nested CharSet :=
  let part := Nested.combine CharSet.unions f.members.reverse
  match f.pending with
  | none => part
  | some (left, op) =>
    ⟨op.apply (fold left.value) (fold part.value), Nested.levelsOf [left, part]⟩

/-- The class as one set. -/
def finish (f : ClassFrame) (fold : CharSet → CharSet) : Nested CharSet :=
  (f.combine fold).deeper fun set => if f.negated then .compl (fold set) else fold set

end ClassFrame

/-- What is under construction, from the inside out. -/
structure Construction where
  group : GroupFrame
  outer : List GroupFrame
  classes : List ClassFrame
  /-- The number of numbered groups opened so far. -/
  groups : Nat
  /-- The group names in use. -/
  names : List (List Char)

namespace Construction

/-- Nothing read yet. -/
def start : Construction :=
  { group := .start none [], outer := [], classes := [], groups := 0, names := [] }

/-- The construction with one more piece in its innermost group. -/
def push (k : Construction) (p : Nested Pattern) : Construction :=
  { k with group := k.group.push p }

/-- The construction with one more piece that nests nothing. -/
def pushFlat (k : Construction) (p : Pattern) : Construction := k.push ⟨p, 0⟩

/-- A symbol inside brackets. -/
def addMember (k : Construction) (f : ClassFrame) (rest : List ClassFrame) :
    Symbol → Option Construction
  | .classItem set => some { k with classes := f.push ⟨set, 0⟩ :: rest }
  | .classOp op =>
    some { k with classes :=
      { f with pending := some (f.combine k.group.fold, op), members := [] } :: rest }
  | .openClass negated literals =>
    some { k with classes := .start negated literals :: f :: rest }
  | .closeClass =>
    let set := f.finish k.group.fold
    match rest with
    | [] => some ({ k with classes := [] }.push ⟨.char set.value, set.levels⟩)
    | g :: rest => some { k with classes := g.push set :: rest }
  | _ => none

/-- A symbol outside brackets. -/
def addPiece (k : Construction) : Symbol → Option Construction
  | .literal c => some (k.pushFlat (.char (k.group.fold (.single c))))
  | .anyChar =>
    some (k.pushFlat (.char (if k.group.switches.contains .dotAll then .all else .notNewline)))
  | .shorthand set => some (k.pushFlat (.char set))
  | .caret =>
    some (k.pushFlat (.check
      (if k.group.switches.contains .multiline then .lineStart else .textStart)))
  | .dollar =>
    some (k.pushFlat (.check
      (if k.group.switches.contains .multiline then .lineEnd else .textEnd)))
  | .check a => some (k.pushFlat (.check a))
  | .bar => some { k with group := k.group.branch }
  | .openGroup numbered name changes =>
    if name.any k.names.contains then none
    else some { k with
      group := .start (if numbered then some k.groups else none) (k.group.switches.apply changes),
      outer := k.group :: k.outer,
      groups := if numbered then k.groups + 1 else k.groups,
      names := name.toList ++ k.names }
  | .closeGroup =>
    match k.outer with
    | [] => none
    | g :: rest => some { k with group := g.push k.group.finish, outer := rest }
  | .switches changes =>
    let group := k.group.push ⟨.empty, 0⟩
    some { k with group :=
      { group with switches := k.group.switches.apply changes, repeatable := false } }
  | .times least most greedy =>
    match k.group.repeatable, k.group.pieces with
    | true, p :: pieces =>
      let greedy := greedy != k.group.switches.contains .swapGreed
      let rounds := p.deeper (repeated least most greedy)
      some { k with group := { k.group with pieces := rounds :: pieces } }
    | _, _ => none
  | .openClass negated literals => some { k with classes := [.start negated literals] }
  | .closeClass | .classOp _ | .classItem _ => none

/-- The construction with one more symbol. -/
def add (k : Construction) (s : Symbol) : Option Construction :=
  match k.classes with
  | [] => k.addPiece s
  | f :: rest => k.addMember f rest s

/-- The pattern, if nothing is left open and the limits are kept. -/
def finish? (k : Construction) : Option Pattern :=
  match k.classes, k.outer with
  | [], [] =>
    let p := k.group.inside
    if p.levels ≤ maxNesting ∧ p.value.weight ≤ maxWeight then some p.value else none
  | _, _ => none

end Construction

/-- Reads a pattern from its notation. -/
def read? (text : String) : Option Pattern := do
  let k ← (← symbols 0 text.toList).foldlM Construction.add Construction.start
  k.finish?

end Palette.Pattern
