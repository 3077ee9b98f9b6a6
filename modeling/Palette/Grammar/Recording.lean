import Palette.Grammar.Issue

/-!
# Recording rules

Recording runs every body once, without tokens, and writes down which primitives it calls. Each
primitive succeeds with a blank answer, so the body is followed to its end; the bodies inside a
decision are recorded as its alternatives, whatever becomes of them.

All functions recurse on the body.
-/

namespace Palette

/-- A rule with its body. -/
structure RuleDef (τ : Type) where
  name : String
  body : Body τ τ

/-- The index of the first rule with the given name. -/
def ruleId? {τ : Type} (rules : List (RuleDef τ)) (name : String) : Option RuleId :=
  rules.findIdx? (·.name == name)

/-- What was recorded so far. -/
structure Recorder where
  /-- The decisions, by number. -/
  decisions : List Decision
  issues : List Issue

namespace Recorder

/-- Nothing recorded. -/
def empty : Recorder := ⟨[], []⟩

/-- Adds an issue unless it is known. -/
def report (r : Recorder) (issue : Issue) : Recorder :=
  if r.issues.contains issue then r else { r with issues := r.issues ++ [issue] }

/-- Whether a decision with this key was recorded before. -/
def knows (r : Recorder) (key : DecisionKey) : Bool := r.decisions.any (·.key == key)

/-- Records a decision of the rule called `rule` and numbers it. -/
def decide (r : Recorder) (rule : String) (key : DecisionKey) (kind : DecisionKind)
    (alternatives : List (List Production)) : Production × Recorder :=
  let d : Decision := { number := r.decisions.length, key, kind, alternatives }
  let r' := if r.knows key then r.report (.sharedDecisionPoint rule key.site) else r
  let r' :=
    if kind == .alternation && alternatives.isEmpty then
      { r' with issues := r'.issues ++ [.emptyAlternation rule key.site] }
    else r'
  (d.production, { r' with decisions := r'.decisions ++ [d] })

/-- Records one thing after the other. -/
def collect {ι β : Type} (record : ι → Recorder → β × Recorder) :
    List ι → Recorder → List β × Recorder
  | [], r => ([], r)
  | i :: rest, r =>
    let (b, r) := record i r
    let (bs, r) := collect record rest r
    (b :: bs, r)

end Recorder

/-- The rule that is being recorded, among all rules. -/
structure RecordedRule where
  id : RuleId
  name : String
  /-- The index of a rule by name. -/
  find : String → Option RuleId

/-- Records what a body calls. -/
def Body.record {τ α : Type} [Inhabited τ] (rule : RecordedRule) :
    Body τ α → Recorder → List Production × Recorder
  | .done _, r => ([], r)
  | .fail, r => ([], r)
  | .consume kind next, r =>
    let (rest, r) := (next (some { (default : Token) with kind })).record rule r
    (.terminal kind :: rest, r)
  | .subrule name next, r =>
    match rule.find name with
    | none => (next (some default)).record rule (r.report (.unresolvedRule rule.name name))
    | some id =>
      let (rest, r) := (next (some default)).record rule r
      (.nonterminal id :: rest, r)
  | .option site body next, r =>
    let (inner, r) := body.record rule r
    let (p, r) := r.decide rule.name ⟨rule.id, site⟩ .option [inner]
    let (rest, r) := (next (some none)).record rule r
    (p :: rest, r)
  | .many site initial round next, r =>
    let (inner, r) := (round initial).record rule r
    let (p, r) := r.decide rule.name ⟨rule.id, site⟩ .many [inner]
    let (rest, r) := (next (some initial)).record rule r
    (p :: rest, r)
  | .atLeastOne site initial round next, r =>
    let (inner, r) := (round initial).record rule r
    let (p, r) := r.decide rule.name ⟨rule.id, site⟩ .atLeastOne [inner]
    let (rest, r) := (next (some initial)).record rule r
    (p :: rest, r)
  | .choose site count alternatives blank next, r =>
    let (inner, r) :=
      Recorder.collect (fun i r => (alternatives i).record rule r) (List.finRange count) r
    let (p, r) := r.decide rule.name ⟨rule.id, site⟩ .alternation inner
    let (rest, r) := (next (some blank)).record rule r
    (p :: rest, r)
  | .action _ next, r => next.record rule r
  | .lookahead _ next, r => (next default).record rule r
  | .recording next, r => (next true).record rule r
  | .progress next, r => (next ⟨true, 0, 0, 0⟩).record rule r

/-- Records one rule, given as name and index. -/
def recordRule {τ : Type} [Inhabited τ] (rules : List (RuleDef τ)) (entry : String × RuleId)
    (r : Recorder) : List Production × Recorder :=
  match rules[entry.2]? with
  | some rule => rule.body.record ⟨entry.2, entry.1, ruleId? rules⟩ r
  | none => ([], r)

/-- Records all rules, in order. -/
def recordRules {τ : Type} [Inhabited τ] (rules : List (RuleDef τ)) : Grammar × List Issue :=
  let (sequences, r) :=
    Recorder.collect (recordRule rules) ((rules.map (·.name)).zipIdx) Recorder.empty
  ({ names := rules.map (·.name), rules := sequences, decisions := r.decisions }, r.issues)

end Palette
