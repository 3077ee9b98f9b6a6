import Palette.Grammar.Issue
import Palette.Grammar.Nullable

/-!
# Left recursion

A rule leads to another when it can invoke it before a token is taken, that is, behind a nullable
part of its sequence. A rule that can come back to itself by such steps is left recursive: running
it could go on forever without taking a token.

For each rule, a depth-first search along the steps looks for a way back. Rules without one are
not entered twice during a search.

## Termination

A way that enters no rule twice is no longer than the number of rules, which bounds the depth of
the search. At each depth the rules still to be tried become fewer.
-/

namespace Palette

mutual

/-- The rules that a production can invoke before a token is taken. -/
def Production.leading (nullable : RuleId → Bool) : Production → List RuleId
  | .terminal _ => []
  | .nonterminal r => [r]
  | .decision _ _ _ alternatives => alternativesLeading nullable alternatives

/-- The rules that a sequence can invoke before a token is taken. -/
def sequenceLeading (nullable : RuleId → Bool) : List Production → List RuleId
  | [] => []
  | p :: rest =>
    p.leading nullable ++ if p.isNullable nullable then sequenceLeading nullable rest else []

/-- The rules that some alternative can invoke before a token is taken. -/
def alternativesLeading (nullable : RuleId → Bool) : List (List Production) → List RuleId
  | [] => []
  | sequence :: rest => sequenceLeading nullable sequence ++ alternativesLeading nullable rest

end

/--
Looks for a way back to `start` that begins with one of the given rules. Returns the rest of the
way and all rules entered so far.
-/
def findCycle (steps : RuleId → List RuleId) (start : RuleId) (depth : Nat)
    (candidates visited : List RuleId) : Option (List RuleId) × List RuleId :=
  match candidates with
  | [] => (none, visited)
  | next :: others =>
    if next = start then (some [next], visited)
    else if visited.contains next then findCycle steps start depth others visited
    else
      match depth with
      | 0 => (none, visited)
      | depth + 1 =>
        match findCycle steps start depth (steps next) (next :: visited) with
        | (some path, visited) => (some (next :: path), visited)
        | (none, visited) => findCycle steps start (depth + 1) others visited
termination_by (depth, candidates.length)

namespace Grammar

/-- The rules that a rule leads to, in order. -/
def leadsTo (g : Grammar) (r : RuleId) : List RuleId :=
  let leading := sequenceLeading g.isNullable (g.rule r)
  g.ruleIds.filter leading.contains

/-- The rules that each rule leads to, by index. -/
def leadTable (g : Grammar) : Array (List RuleId) :=
  let nullable := g.nullableRules
  (g.ruleIds.map fun r =>
    let leading := sequenceLeading nullable.contains (g.rule r)
    g.ruleIds.filter leading.contains).toArray

/-- The table holds what every rule leads to. -/
theorem getElem?_leadTable (g : Grammar) (r : RuleId) :
    g.leadTable[r]?.getD [] = g.leadsTo r := by
  have htable : g.leadTable = (g.ruleIds.map g.leadsTo).toArray := rfl
  rw [htable, List.getElem?_toArray, List.getElem?_map, ruleIds]
  by_cases h : r < g.size
  · simp [List.getElem?_range h]
  · have hrule : g.rule r = [] := by
      simp only [rule, List.getElem?_eq_none (Nat.le_of_not_lt h), Option.getD_none]
    simp [Nat.le_of_not_lt h, leadsTo, hrule, sequenceLeading]

/-- A way from a rule back to itself, if there is one. -/
def cycle? (g : Grammar) (steps : RuleId → List RuleId) (r : RuleId) : Option (List RuleId) :=
  (findCycle steps r g.size (steps r) []).1.map (r :: ·)

/-- An issue for every rule that is left recursive. -/
def leftRecursion (g : Grammar) : List Issue :=
  let table := g.leadTable
  g.ruleIds.filterMap fun r =>
    (g.cycle? (fun s => table[s]?.getD []) r).map fun path =>
      .leftRecursion (g.name r) (path.map g.name)

end Grammar

end Palette
