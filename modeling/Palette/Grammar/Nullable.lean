import Palette.Grammar.Basic

/-!
# Nullable rules

A rule is nullable when it can describe the empty sequence of tokens. Starting from no rule at
all, each sweep marks the rules whose sequence is nullable by what is marked already, until a sweep
marks nothing new. Every sweep before that marks at least one rule more, so there are no more of
them than there are rules.
-/

namespace Palette

mutual

/-- Whether a production is nullable, given which rules are. -/
def Production.isNullable (marked : RuleId → Bool) : Production → Bool
  | .terminal _ => false
  | .nonterminal r => marked r
  | .decision _ _ kind alternatives =>
    match kind with
    | .option | .many => true
    | .atLeastOne => bodyNullable marked alternatives
    | .alternation => someNullable marked alternatives

/-- Whether all productions of a sequence are nullable. -/
def sequenceNullable (marked : RuleId → Bool) : List Production → Bool
  | [] => true
  | p :: rest => p.isNullable marked && sequenceNullable marked rest

/-- Whether the body of a decision with a single one is nullable. -/
def bodyNullable (marked : RuleId → Bool) : List (List Production) → Bool
  | [] => true
  | body :: _ => sequenceNullable marked body

/-- Whether some alternative is nullable. -/
def someNullable (marked : RuleId → Bool) : List (List Production) → Bool
  | [] => false
  | sequence :: rest => sequenceNullable marked sequence || someNullable marked rest

end

namespace Grammar

/-- Marks a rule if it is nullable by the marks made before. -/
def mark (g : Grammar) (marked : List RuleId) (r : RuleId) : List RuleId :=
  if !marked.contains r && sequenceNullable marked.contains (g.rule r) then r :: marked
  else marked

/-- Marks the rules that are nullable by the marks made before and on the way. -/
def sweep (g : Grammar) (marked : List RuleId) : List RuleId := g.ruleIds.foldl g.mark marked

/-- Sweeps until a sweep marks nothing new, at most `n` times. -/
def sweeps (g : Grammar) : Nat → List RuleId → List RuleId
  | 0, marked => marked
  | n + 1, marked =>
    let more := g.sweep marked
    if more.length = marked.length then marked else g.sweeps n more

/-- The nullable rules. -/
def nullableRules (g : Grammar) : List RuleId := g.sweeps g.size []

/-- Whether a rule is nullable. -/
def isNullable (g : Grammar) (r : RuleId) : Bool := g.nullableRules.contains r

end Grammar

end Palette
