import Palette.Grammar.Basic
import Palette.Grammar.Issue

/-!
# Lookahead paths

A lookahead path of a sequence is what a piece of text described by it can start with: a list of
token kinds, cut at a given length, the budget. A path shorter than the budget is complete, the
piece ends there. The paths of a decision are those of its own alternatives; what follows the
decision plays no part.

Path sets are kept sorted and without repetition. The paths of a rule within a budget are
computed once and remembered.

## Termination

Rules may expand each other. An expansion within the same budget follows a step of leading rules,
so without left recursion there are fewer of those in a row than there are rules; `depth` bounds
how many expansions may be nested, and the computation gives up with `none` below it.
`repetition` spends part of its budget on every round.
-/

namespace Palette

/-- Token kinds that a piece of text can start with. -/
abbrev Path := List TokenKind

namespace Path

/-- The order of paths: by the first kind in which they differ, a beginning before the whole. -/
def le : Path → Path → Bool
  | [], _ => true
  | _ :: _, [] => false
  | a :: p, b :: q => a.index < b.index || (a.index == b.index && le p q)

/-- The list without elements that equal the one before them. -/
def dropRepeats : List Path → List Path
  | p :: q :: rest => if p == q then dropRepeats (q :: rest) else p :: dropRepeats (q :: rest)
  | paths => paths

/-- The paths in order and without repetition. -/
def sorted (paths : List Path) : List Path := dropRepeats (paths.mergeSort le)

end Path

/-- The paths of rules within budgets, as far as they are known. -/
abbrev PathMemo := List ((RuleId × Nat) × List Path)

/-- A computation that uses the known paths and may give up. -/
abbrev PathM := StateT PathMemo Option

/--
The paths of any number of rounds of a body, given the paths of one round. A round without a
token adds nothing.
-/
def repetition (body : Nat → PathM (List Path)) (budget : Nat) : PathM (List Path) := do
  if budget = 0 then return [[]]
  let firsts ← body budget
  let parts ← firsts.mapM fun first => do
    if first.length = 0 then return []
    else if budget ≤ first.length then return [first]
    else return (← repetition body (budget - first.length)).map (first ++ ·)
  return Path.sorted ([[]] ++ parts.flatten)
termination_by budget

mutual

/-- The paths of a production, given those of the rules. -/
def Production.paths (rule : RuleId → Nat → PathM (List Path)) :
    Production → Nat → PathM (List Path)
  | .terminal kind, budget => return if budget = 0 then [[]] else [[kind]]
  | .nonterminal r, budget => if budget = 0 then return [[]] else rule r budget
  | .decision _ _ kind alternatives, budget => do
    if budget = 0 then return [[]]
    match kind with
    | .option => return Path.sorted ((← bodyPaths rule alternatives budget) ++ [[]])
    | .many => return Path.sorted (← repetition (bodyPaths rule alternatives) budget)
    | .atLeastOne =>
      let firsts ← bodyPaths rule alternatives budget
      let parts ← firsts.mapM fun first => do
        if budget ≤ first.length then return [first]
        else
          let rest ← repetition (bodyPaths rule alternatives) (budget - first.length)
          return rest.map (first ++ ·)
      return Path.sorted parts.flatten
    | .alternation => return Path.sorted (← alternativePaths rule alternatives budget).flatten

/-- The paths that go on from `paths` with the rest of a sequence. -/
def continuePaths (rule : RuleId → Nat → PathM (List Path)) :
    List Production → Nat → List Path → PathM (List Path)
  | [], _, paths => return paths
  | p :: rest, budget, paths => do
    if paths.all (budget ≤ ·.length) then return paths
    let parts ← paths.mapM fun path => do
      if budget ≤ path.length then return [path]
      else return (← p.paths rule (budget - path.length)).map (path ++ ·)
    continuePaths rule rest budget (Path.sorted parts.flatten)

/-- The paths of the body of a decision with a single one. -/
def bodyPaths (rule : RuleId → Nat → PathM (List Path)) :
    List (List Production) → Nat → PathM (List Path)
  | [], _ => return [[]]
  | body :: _, budget => continuePaths rule body budget [[]]

/-- The paths of each alternative. -/
def alternativePaths (rule : RuleId → Nat → PathM (List Path)) :
    List (List Production) → Nat → PathM (List (List Path))
  | [], _ => return []
  | sequence :: rest, budget => do
    let paths ← continuePaths rule sequence budget [[]]
    return paths :: (← alternativePaths rule rest budget)

end

/-- The paths of a sequence, given those of the rules. -/
def sequencePaths (rule : RuleId → Nat → PathM (List Path)) (sequence : List Production)
    (budget : Nat) : PathM (List Path) :=
  continuePaths rule sequence budget [[]]

namespace Grammar

/-- The paths of a rule, remembered, with at most `depth` nested expansions. -/
def rulePaths (g : Grammar) : Nat → RuleId → Nat → PathM (List Path)
  | 0, _, _ => failure
  | depth + 1, r, budget => do
    match (← get).lookup (r, budget) with
    | some paths => return paths
    | none =>
      let paths ← sequencePaths (g.rulePaths depth) (g.rule r) budget
      modify (((r, budget), paths) :: ·)
      return paths

/-- How many expansions can be nested within a budget when there is no left recursion. -/
def pathDepth (g : Grammar) (budget : Nat) : Nat := budget * g.size + 1

/-- The paths of a sequence of the grammar. -/
def paths (g : Grammar) (sequence : List Production) (budget : Nat) : PathM (List Path) :=
  sequencePaths (g.rulePaths (g.pathDepth budget)) sequence budget

end Grammar

/--
What can be ahead at a decision: the paths of every alternative of an alternation. An option or a
repetition has the paths that enter its body, none of them empty.
-/
abbrev DecisionTable := List (List Path)

/-- The tables of the decisions by key. -/
abbrev Lookahead := List (DecisionKey × DecisionTable)

namespace Lookahead

/-- The table of a decision. -/
def table? (l : Lookahead) (key : DecisionKey) : Option DecisionTable := l.lookup key

/-- Puts a table in the place of the one with the same key, or behind all others. -/
def insert (key : DecisionKey) (table : DecisionTable) : Lookahead → Lookahead
  | [] => [(key, table)]
  | (k, t) :: rest => if k == key then (key, table) :: rest else (k, t) :: insert key table rest

end Lookahead

namespace Vocabulary

/-- Whether two paths can be the same tokens. -/
def pathsOverlap (v : Vocabulary) : Path → Path → Bool
  | [], [] => true
  | a :: p, b :: q => v.overlaps a b && v.pathsOverlap p q
  | _, _ => false

/-- The first path that overlaps one of the others. -/
def sharedPath? (v : Vocabulary) (left right : List Path) : Option Path :=
  left.find? fun p => right.any (v.pathsOverlap p)

end Vocabulary

/-- All pairs of elements with their indices, in order of the first and then of the second. -/
def indexedPairs {α : Type} (items : List α) : List ((Nat × α) × (Nat × α)) :=
  let indexed := items.zipIdx.map fun (a, i) => (i, a)
  indexed.flatMap fun a => (indexed.filter (fun b => a.1 < b.1)).map fun b => (a, b)

/-- An issue for each pair of alternatives that can start with the same tokens. -/
def ambiguities (g : Grammar) (v : Vocabulary) (key : DecisionKey) (table : DecisionTable) :
    List Issue :=
  (indexedPairs table).filterMap fun ((i, left), (j, right)) =>
    (v.sharedPath? left right).map fun path =>
      .ambiguousAlternatives (g.name key.rule) key.site i j (path.map v.name)

namespace Grammar

/-- The table of a decision. -/
def decisionTable (g : Grammar) (budget : Nat) (d : Decision) : PathM DecisionTable :=
  match d.kind with
  | .alternation => d.alternatives.mapM fun sequence => g.paths sequence budget
  | .option | .many | .atLeastOne => do
    let enter ← g.paths (bodyOf d.alternatives) budget
    return [enter.filter (!·.isEmpty)]

/-- The tables of all decisions and the ambiguities among their alternatives. -/
def lookaheadFrom (g : Grammar) (v : Vocabulary) (budget : Nat) :
    List Decision → Lookahead → PathM (Lookahead × List Issue)
  | [], tables => return (tables, [])
  | d :: rest, tables => do
    let table ← g.decisionTable budget d
    let issues := if d.kind == .alternation then ambiguities g v d.key table else []
    let (tables, more) ← g.lookaheadFrom v budget rest (tables.insert d.key table)
    return (tables, issues ++ more)

/-- The tables and ambiguities of the grammar, unless the computation gives up. -/
def lookahead? (g : Grammar) (v : Vocabulary) (budget : Nat) : Option (Lookahead × List Issue) :=
  ((g.lookaheadFrom v budget g.decisions []).run []).map (·.1)

end Grammar

end Palette
