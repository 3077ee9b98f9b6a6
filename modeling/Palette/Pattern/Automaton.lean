import Palette.Pattern.Basic

/-!
# Automata of patterns

An automaton is a pattern laid out as numbered places. A place reads one character of a set, or
checks an assertion, and goes on to another place; or it forks to two places, of which it prefers
the first; or it is where a piece is complete.

`lay` puts a pattern in front of a place that is already there, so what follows a piece is known
when the piece is laid out. Only a loop leads back: its fork is reserved before the body is laid
out in front of it, and filled in when the beginning of the body is known. Where a round may be
empty, the loop is entered by a fork of its own, so that passing the repetition over and leaving
it after a round stay apart.

Rounds that are counted are laid out one by one.
-/

namespace Palette

/-- What happens at a place of an automaton. -/
inductive Place where
  /-- A character of the set is read. -/
  | read (set : CharSet) (next : Nat)
  /-- The assertion has to hold. -/
  | check (assertion : Assertion) (next : Nat)
  /-- Both ways are open, and the first is preferred. -/
  | fork (first second : Nat)
  /-- A piece is complete. -/
  | done
  deriving Repr, Inhabited

/-- A pattern laid out as numbered places. -/
structure Automaton where
  places : Array Place
  start : Nat
  deriving Inhabited

namespace Automaton

/-- Lays something out in front of a place; the answer is where it begins and the longer layout. -/
abbrev Layout := Nat → Array Place → Nat × Array Place

/-- A fork into a body and past it: greedily the body is preferred. -/
def forkInto (greedy : Bool) (body past : Nat) : Place :=
  if greedy then .fork body past else .fork past body

/-- The same layout `n` times, one in front of the other. -/
def layCopies (body : Layout) : Nat → Layout
  | 0, next, places => (next, places)
  | n + 1, next, places =>
    let (start, places) := body next places
    layCopies body n start places

/-- At most `n` rounds, each inside the one before it; `next` follows the last of them. -/
def layOptional (greedy : Bool) (body : Layout) (past : Nat) : Nat → Layout
  | 0, next, places => (next, places)
  | n + 1, next, places =>
    let (start, places) := body next places
    layOptional greedy body past n places.size (places.push (forkInto greedy start past))

/-- A loop around the body: where its first round begins, and the fork behind each round. -/
def layLoop (greedy : Bool) (body : Layout) (next : Nat) (places : Array Place) :
    Nat × Nat × Array Place :=
  let behind := places.size
  let (start, places) := body behind (places.push .done)
  (start, behind, places.setIfInBounds behind (forkInto greedy start next))

/-- Lays out a pattern. -/
def lay : Pattern → Layout
  | .empty, next, places => (next, places)
  | .char set, next, places => (places.size, places.push (.read set next))
  | .check assertion, next, places => (places.size, places.push (.check assertion next))
  | .seq p q, next, places =>
    let (start, places) := lay q next places
    lay p start places
  | .alt p q, next, places =>
    let (first, places) := lay p next places
    let (second, places) := lay q next places
    (places.size, places.push (.fork first second))
  | .group _ p, next, places => lay p next places
  | .times least (some most) greedy p, next, places =>
    let (start, places) := layOptional greedy (lay p) next (most - least) next places
    layCopies (lay p) least start places
  | .times 0 none greedy p, next, places =>
    let (start, behind, places) := layLoop greedy (lay p) next places
    if p.mayBeEmpty then (places.size, places.push (forkInto greedy start next))
    else (behind, places)
  | .times (n + 1) none greedy p, next, places =>
    let (start, _, places) := layLoop greedy (lay p) next places
    layCopies (lay p) n start places

/-- The automaton of a pattern. -/
def ofPattern (p : Pattern) : Automaton :=
  let (start, places) := lay p 0 #[.done]
  { places, start }

end Automaton

end Palette
