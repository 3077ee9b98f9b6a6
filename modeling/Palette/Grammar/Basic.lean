import Palette.Vocabulary
import Palette.Grammar.Body

/-!
# Grammars

A grammar gives each rule a sequence of productions. A production is a token, another rule, or a
decision with alternative sequences of its own; options and repetitions are decisions with one
alternative, their body.

Decisions are numbered in the order in which their recording ends, so those inside a decision
have smaller numbers than the decision itself, and `decisions` lists all of them by number.
-/

namespace Palette

/-- The index of a rule in its grammar. -/
abbrev RuleId := Nat

/-- Where a decision is made. -/
structure DecisionKey where
  rule : RuleId
  site : Site
  deriving DecidableEq, Repr

/-- What a decision is about. -/
inductive DecisionKind where
  | option
  | many
  | atLeastOne
  | alternation
  deriving DecidableEq, Repr

/-- A part of a rule. -/
inductive Production where
  /-- A token that fits the kind. -/
  | terminal (kind : TokenKind)
  /-- What the rule describes. -/
  | nonterminal (rule : RuleId)
  /-- A choice between sequences, or one sequence taken some number of times. -/
  | decision (number : Nat) (key : DecisionKey) (kind : DecisionKind)
      (alternatives : List (List Production))

/-- A decision apart from the sequence it occurs in. -/
structure Decision where
  number : Nat
  key : DecisionKey
  kind : DecisionKind
  /-- The alternatives of an alternation; the single body otherwise. -/
  alternatives : List (List Production)

/-- The decision as a part of a rule. -/
def Decision.production (d : Decision) : Production :=
  .decision d.number d.key d.kind d.alternatives

/-- The body of a decision with a single one. -/
def bodyOf : List (List Production) → List Production
  | [] => []
  | body :: _ => body

/-- A rule's sequence of productions for each rule, with names. -/
structure Grammar where
  /-- The names of the rules, by index. -/
  names : List String
  /-- The sequences of the rules, by index. -/
  rules : List (List Production)
  /-- All decisions, by number. -/
  decisions : List Decision

namespace Grammar

/-- The sequence of a rule. -/
def rule (g : Grammar) (r : RuleId) : List Production := g.rules[r]?.getD []

/-- The name of a rule. -/
def name (g : Grammar) (r : RuleId) : String := g.names[r]?.getD ""

/-- Number of rules. -/
def size (g : Grammar) : Nat := g.rules.length

/-- The indices of the rules. -/
def ruleIds (g : Grammar) : List RuleId := List.range g.size

end Grammar

end Palette
