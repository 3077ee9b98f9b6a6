import Palette.Grammar.LeftRecursion
import Palette.Grammar.Recognizer
import Palette.Lexer.Basic

/-!
# Parsers

A parser is a vocabulary with rules whose grammar was recorded, checked and given its lookahead
tables. It executes texts, computing the value of the start rule, and highlights them: the nodes
are the lexer's, whatever the grammar makes of the tokens, and the errors are those of the lexer
followed by those of the grammar.
-/

namespace Palette

/-- What is fixed when a grammar is analysed. -/
structure ParserConfig where
  /-- The rule to start with; the first one if not given. -/
  startRule : Option String
  /-- Depth of the lookahead paths. -/
  maxLookahead : Nat
  /-- Whether a single token that does not fit may be passed over. -/
  recovery : Bool
  deriving DecidableEq, Repr

namespace ParserConfig

/-- Three tokens of lookahead from the first rule, without recovery. -/
def standard : ParserConfig := { startRule := none, maxLookahead := 3, recovery := false }

instance : Inhabited ParserConfig := ⟨standard⟩

/-- The configuration with another depth, at least one. -/
def withMaxLookahead (c : ParserConfig) (depth : Nat) : ParserConfig :=
  { c with maxLookahead := max depth 1 }

/-- The configuration described by its fields. -/
def describe (c : ParserConfig) : String :=
  Text.record "ParserConfig"
    [Text.field "start_rule" (Text.optional (c.startRule.map Text.quoted)),
      Text.field "max_lookahead" (toString c.maxLookahead),
      Text.field "recovery_enabled" (Text.truth c.recovery)]

end ParserConfig

/-- A vocabulary with the rules of a grammar, not analysed yet. -/
structure GrammarDef (τ : Type) where
  vocabulary : Vocabulary
  rules : List (RuleDef τ)

namespace GrammarDef

variable {τ : Type}

/-- The names of the rules, in order. -/
def ruleNames (d : GrammarDef τ) : List String := d.rules.map (·.name)

/-- The definition described by its rules. -/
def describe (d : GrammarDef τ) : String :=
  Text.openRecord "GrammarBuilder"
    [Text.field "rules" (Text.bracketed (d.ruleNames.map Text.quoted))]

end GrammarDef

/-- An analysed grammar. -/
structure Parser (τ : Type) where
  vocabulary : Vocabulary
  rules : List (RuleDef τ)
  lookahead : Lookahead
  start : RuleId
  config : ParserConfig

/-- The names that occur again behind their first occurrence, each once. -/
def duplicates (names : List String) : List String :=
  (names.zipIdx.filterMap fun (name, i) =>
    if (names.take i).contains name then some name else none).eraseDups

namespace GrammarDef

variable {τ : Type}

/-- The rule to start with. -/
def start? (d : GrammarDef τ) (config : ParserConfig) : Option RuleId :=
  match config.startRule with
  | some name => ruleId? d.rules name
  | none => some 0

/-- The issues that show before the lookahead is computed. -/
def definitionIssues [Inhabited τ] (d : GrammarDef τ) (config : ParserConfig) : List Issue :=
  (duplicates d.ruleNames).map .duplicateRule ++
    (match d.start? config, config.startRule with
      | none, some name => [.unknownStartRule name]
      | _, _ => []) ++
    (recordRules d.rules).2

/-- Checks the grammar and computes its lookahead. -/
def analyse [Inhabited τ] (d : GrammarDef τ) (config : ParserConfig) :
    Except GrammarError (Parser τ) :=
  if d.rules.isEmpty then .error ⟨[.noRules]⟩
  else
    let config := config.withMaxLookahead config.maxLookahead
    match d.definitionIssues config, d.start? config with
    | [], some start =>
      let g := (recordRules d.rules).1
      match g.leftRecursion with
      | [] =>
        match g.lookahead? d.vocabulary config.maxLookahead with
        | some (lookahead, []) =>
          .ok { vocabulary := d.vocabulary, rules := d.rules, lookahead, start, config }
        | some (_, issues) => .error ⟨issues⟩
        | none => .error ⟨[]⟩
      | issues => .error ⟨issues⟩
    | issues, _ => .error ⟨issues⟩

end GrammarDef

/-- An error of an execution. -/
inductive ExecutionError where
  | lexical (error : LexError)
  | recognition (error : RecognitionError)
  deriving DecidableEq, Repr

namespace ExecutionError

/-- The error as part of a highlight. -/
def toHighlightError (e : ExecutionError) (source : String) : HighlightError :=
  match e with
  | lexical e => e.toHighlightError source
  | recognition e => e.toHighlightError source

/-- Whether the error comes from the lexer. -/
def isLexical : ExecutionError → Bool
  | lexical _ => true
  | recognition _ => false

end ExecutionError

/-- What executing a text gives. -/
structure Execution (τ : Type) where
  /-- The value of the start rule, even when there are errors. -/
  result : Option τ
  /-- The errors of the lexer, then those of the grammar. -/
  errors : List ExecutionError

namespace Execution

/-- Whether there are no errors. -/
def isOk {τ : Type} (e : Execution τ) : Bool := e.errors.isEmpty

/-- The value, if there are no errors, and the errors otherwise. -/
def toExcept {τ : Type} (e : Execution τ) : Except (List ExecutionError) τ :=
  match e.result, e.errors with
  | some v, [] => .ok v
  | _, errors => .error errors

end Execution

namespace Parser

variable {τ : Type}

/-- The name of the start rule. -/
def startRule (p : Parser τ) : String := (p.rules[p.start]?.map (·.name)).getD ""

/-- The names of the rules, in order. -/
def ruleNames (p : Parser τ) : List String := p.rules.map (·.name)

/-- The parser described by its parts. -/
def describe (p : Parser τ) : String :=
  Text.openRecord "HighlightParser"
    [Text.field "start" (Text.quoted p.startRule),
      Text.field "rules" (toString p.rules.length),
      Text.field "decisions" (toString p.lookahead.length),
      Text.field "config" p.config.describe]

/-- What the recognizer reads for the given tokens of a text. -/
def input (p : Parser τ) (text : String) (tokens : List Token) : RecognizerInput :=
  { vocabulary := p.vocabulary, lookahead := p.lookahead, names := p.ruleNames,
    tokens := tokens.toArray, length := Text.byteLength text.toList, recovery := p.config.recovery }

/-- Recognizes tokens of a text within a number of steps. -/
def recognizeWithin (p : Parser τ) (steps : Nat) (text : String) (tokens : List Token) :
    Outcome τ :=
  recognizeWith p.rules (p.input text tokens) steps p.start

/--
A number of steps that is enough when no rule invokes itself again at the same token, neither
outside of speculation nor within it, and no repetition goes on behind the last token.
-/
def steps (p : Parser τ) (tokens : List Token) : Nat :=
  2 * p.rules.length * (tokens.length + 2) + tokens.length + 4

/-- The errors of a text: those of the lexer, then those of the grammar. -/
def allErrors (lexical : List LexError) (recognition : List RecognitionError) :
    List ExecutionError :=
  lexical.map .lexical ++ recognition.map .recognition

/-- Executes a text within a number of steps, and gives the events noted too. -/
def executeWithin (p : Parser τ) (steps : Nat) (text : String) :
    Option (Execution τ × List String) :=
  let tokenized := p.vocabulary.tokenize text
  match p.recognizeWithin steps text tokenized.tokens with
  | .finished result s => some (⟨result, allErrors tokenized.errors s.errors⟩, s.log)
  | .unfinished => none

/-- Executes a text; a run that would not end gives nothing. -/
def execute (p : Parser τ) (text : String) : Option (Execution τ × List String) :=
  p.executeWithin (p.steps (p.vocabulary.tokenize text).tokens) text

/-- Highlights a text within a number of steps. -/
def highlightWithin (p : Parser τ) (steps : Nat) (text : String) : Option Highlight :=
  let data := p.vocabulary.highlightData text
  let tokens := (data.tokens.filter (!·.skipped)).map (·.token)
  match p.recognizeWithin steps text tokens with
  | .finished _ s =>
    some
      { nodes := data.tokens.map (·.node),
        errors := data.errors.map (·.toHighlightError text) ++
          s.errors.map (·.toHighlightError text) }
  | .unfinished => none

/-- Highlights a text; a run that would not end gives nothing. -/
def highlight (p : Parser τ) (text : String) : Option Highlight :=
  p.highlightWithin (p.steps (p.vocabulary.tokenize text).tokens) text

end Parser

end Palette
