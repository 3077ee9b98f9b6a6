import Palette.Grammar.Basic

/-!
# What can be wrong with a grammar

A grammar is refused with all the issues found at the same stage of its analysis.
-/

namespace Palette

/-- A reason to refuse a grammar. -/
inductive Issue where
  | noRules
  | duplicateRule (name : String)
  | unknownStartRule (name : String)
  | unresolvedRule (rule reference : String)
  | emptyAlternation (rule : String) (site : Site)
  /-- Two decisions of a rule have one site, so they cannot be told apart. -/
  | sharedDecisionPoint (rule : String) (site : Site)
  /-- A rule can come back to itself before a token is taken. -/
  | leftRecursion (rule : String) (path : List String)
  /-- Two alternatives can start with the same tokens. -/
  | ambiguousAlternatives (rule : String) (site : Site) (first second : Nat) (path : List String)
  deriving DecidableEq, Repr

namespace Issue

/-- The line by which an issue is reported. -/
def message : Issue → String
  | noRules => "grammar defines no rules"
  | duplicateRule name => "rule `" ++ name ++ "` is defined more than once"
  | unknownStartRule name => "start rule `" ++ name ++ "` is not defined"
  | unresolvedRule rule reference =>
    "rule `" ++ rule ++ "` invokes undefined rule `" ++ reference ++ "`"
  | emptyAlternation rule site =>
    "rule `" ++ rule ++ "` has an alternation without alternatives at site " ++ toString site
  | sharedDecisionPoint rule site =>
    "decision point at site " ++ toString site ++
      " is reached more than once while recording rule `" ++ rule ++
      "`; mark the helper that contains it #[track_caller]"
  | leftRecursion _ path => "left recursion: " ++ " -> ".intercalate path
  | ambiguousAlternatives rule site first second path =>
    "alternatives " ++ toString first ++ " and " ++ toString second ++
      " of the alternation at site " ++ toString site ++ " in rule `" ++ rule ++
      "` share the lookahead path <" ++ " ".intercalate path ++ ">"

end Issue

/-- The issues for which a grammar is refused. -/
structure GrammarError where
  issues : List Issue
  deriving DecidableEq, Repr

/-- The line by which a refused grammar is reported. -/
def GrammarError.message (e : GrammarError) : String :=
  "invalid grammar: " ++ "; ".intercalate (e.issues.map Issue.message)

end Palette
