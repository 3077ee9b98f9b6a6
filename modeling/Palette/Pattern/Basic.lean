import Palette.Pattern.CharSet

/-!
# Patterns

A pattern describes pieces of text. Where several pieces would do, it prefers some over others:
the first branch of an alternation over the second, one more round of a greedy repetition over
leaving it, and leaving a lazy one over one more round.

An assertion reads nothing and looks at the characters on both sides of the current position.

Patterns are put together by `seqs`, `alts` and `repeated`, which leave out what makes no
difference: empty pieces of a sequence, further rounds of what reads nothing, and alternations of
single characters, which make one set. `alts` also settles what branches mean that begin alike:
their common beginning is read first, and only then the branches differ. So `[ab]*b|[ab]*c`
stands for `[ab]*(?:b|c)`.
-/

namespace Palette

/-- A condition on the two sides of a position. -/
inductive Assertion where
  | textStart
  | textEnd
  | lineStart
  | lineEnd
  | wordBoundary
  | notWordBoundary
  /-- A word starts here. -/
  | wordStart
  /-- A word ends here. -/
  | wordEnd
  /-- No word character precedes. -/
  | wordStartHalf
  /-- No word character follows. -/
  | wordEndHalf
  deriving DecidableEq, Repr, Inhabited

/-- The characters before and after a position, where there are any. -/
structure Gap where
  before : Option Char
  after : Option Char

namespace Gap

/-- Whether a word character precedes. -/
def afterWord (g : Gap) : Bool := g.before.any Unicode.isWord

/-- Whether a word character follows. -/
def beforeWord (g : Gap) : Bool := g.after.any Unicode.isWord

/-- Whether the assertion holds here. -/
def satisfies (g : Gap) : Assertion → Bool
  | .textStart => g.before.isNone
  | .textEnd => g.after.isNone
  | .lineStart => g.before.all (· == '\n')
  | .lineEnd => g.after.all (· == '\n')
  | .wordBoundary => g.afterWord != g.beforeWord
  | .notWordBoundary => g.afterWord == g.beforeWord
  | .wordStart => !g.afterWord && g.beforeWord
  | .wordEnd => g.afterWord && !g.beforeWord
  | .wordStartHalf => !g.afterWord
  | .wordEndHalf => !g.beforeWord

/-- Whether the character before the position is enough to see that the assertion holds. -/
def settles (g : Gap) : Assertion → Bool
  | .textStart => g.satisfies .textStart
  | .lineStart => g.satisfies .lineStart
  | .wordStartHalf => g.satisfies .wordStartHalf
  | _ => false

/-- What is settled holds, whatever follows. -/
theorem satisfies_of_settles {g : Gap} {a : Assertion} (h : g.settles a = true) :
    g.satisfies a = true := by
  cases a <;> simp_all [settles]

end Gap

/-- A description of pieces of text with preferences among them. -/
inductive Pattern where
  /-- The empty piece. -/
  | empty
  /-- One character of a set. -/
  | char (set : CharSet)
  /-- The empty piece where an assertion holds. -/
  | check (assertion : Assertion)
  /-- One piece after the other. -/
  | seq (first second : Pattern)
  /-- One of two, preferably the first. -/
  | alt (first second : Pattern)
  /-- From `least` to `most` rounds, or any number of them from `least` on. -/
  | times (least : Nat) (most : Option Nat) (greedy : Bool) (body : Pattern)
  /-- A group with a number of its own, which tells it from groups that look the same. -/
  | group (number : Nat) (body : Pattern)
  deriving DecidableEq, Repr, Inhabited

namespace Pattern

/-- Whether all pieces of the pattern are empty. -/
def readsNothing : Pattern → Bool
  | empty => true
  | char _ => false
  | check _ => true
  | seq p q => p.readsNothing && q.readsNothing
  | alt p q => p.readsNothing && q.readsNothing
  | times _ _ _ p => p.readsNothing
  | group _ p => p.readsNothing

/-- Whether a piece of the pattern may be empty. -/
def mayBeEmpty : Pattern → Bool
  | empty => true
  | char _ => false
  | check _ => true
  | seq p q => p.mayBeEmpty && q.mayBeEmpty
  | alt p q => p.mayBeEmpty || q.mayBeEmpty
  | times least _ _ p => least == 0 || p.mayBeEmpty
  | group _ p => p.mayBeEmpty

/-- What reads nothing may be empty. -/
theorem mayBeEmpty_of_readsNothing {p : Pattern} (h : p.readsNothing = true) :
    p.mayBeEmpty = true := by
  induction p <;> simp_all [readsNothing, mayBeEmpty]

/-- The pieces that follow each other in the pattern. -/
def parts : Pattern → List Pattern
  | empty => []
  | seq p q => p.parts ++ q.parts
  | p => [p]

/-- The branches that the pattern chooses from. -/
def branches : Pattern → List Pattern
  | alt p q => p.branches ++ q.branches
  | p => [p]

/-- The pieces in sequence. -/
def seqs (ps : List Pattern) : Pattern :=
  chain (ps.flatMap parts)
where
  /-- A sequence of pieces none of which is a sequence. -/
  chain : List Pattern → Pattern
    | [] => empty
    | [p] => p
    | p :: rest => seq p (chain rest)

/-- The set of a pattern that reads one character. -/
def charSet? : Pattern → Option CharSet
  | char set => some set
  | _ => none

/-- One of several, the earlier the better; single characters make one set. -/
def choice (ps : List Pattern) : Pattern :=
  let branches := ps.flatMap branches
  match branches.mapM charSet? with
  | some (set :: sets) => char (.unions (set :: sets))
  | _ => chain branches
where
  /-- A choice of branches none of which is a choice. -/
  chain : List Pattern → Pattern
    | [] => empty
    | [p] => p
    | p :: rest => alt p (chain rest)

/-- The common beginning of two lists. -/
def commonStart : List Pattern → List Pattern → List Pattern
  | p :: ps, q :: qs => if p = q then p :: commonStart ps qs else []
  | _, _ => []

/-- The common beginning of branches of at least two pieces each. -/
def sharedStart : List (List Pattern) → List Pattern
  | [] => []
  | first :: rest =>
    if (first :: rest).all (2 ≤ ·.length) then rest.foldl commonStart first else []

/-- One of several, the earlier the better, behind what all of them begin with. -/
def alts (ps : List Pattern) : Pattern :=
  match ps.flatMap branches with
  | [] => empty
  | [p] => p
  | branches =>
    let pieces := branches.map parts
    let start := sharedStart pieces
    seqs (start ++ [choice (pieces.map fun ps => seqs (ps.drop start.length))])

/-- From `least` to `most` rounds, or any number of them from `least` on. -/
def repeated (least : Nat) (most : Option Nat) (greedy : Bool) (p : Pattern) : Pattern :=
  let (least, most) :=
    if p.readsNothing then (min least 1, some (min (most.getD 1) 1)) else (least, most)
  if most = some 0 then empty
  else if least = 1 ∧ most = some 1 then p
  else times least most greedy p

/-- Exactly one round is the piece itself. -/
theorem repeated_one (greedy : Bool) (p : Pattern) : repeated 1 (some 1) greedy p = p := by
  cases h : p.readsNothing <;> simp [repeated, h]

end Pattern

end Palette
