import Palette.Grammar.Lookahead
import Palette.Grammar.Recording

/-!
# Recognizing tokens

Running a body on tokens follows its calls with real answers. A decision whose table is known is
made by the tokens ahead. One that the recording never reached is tried out: its body runs
speculatively, and position and errors are taken back when it fails.

A primitive that fails records an error at the next token, with the stack of rules it happened
in. With recovery on, and outside of speculation, a token that does not fit is passed over when
the one after it does.

## Termination

Nothing keeps a body from invoking its own rule forever, or from a round that never ends. A run
is therefore given a number of steps; every nested invocation and every round takes one away, and
a run that has none left is `unfinished`. A finished run is the same with more steps.
-/

namespace Palette

/-- What is wrong with the tokens. -/
inductive RecognitionErrorKind where
  | mismatchedToken
  | noViableAlternative
  | earlyExit
  | notAllInputParsed
  deriving DecidableEq, Repr

/-- The kind as renderers know it. -/
def RecognitionErrorKind.highlightKind : RecognitionErrorKind → HighlightErrorKind
  | mismatchedToken => .mismatchedToken
  | noViableAlternative => .noViableAlternative
  | earlyExit => .earlyExit
  | notAllInputParsed => .notAllInputParsed

/-- An error at a token. -/
structure RecognitionError where
  kind : RecognitionErrorKind
  message : String
  /-- The token that does not fit, or the end of the input. -/
  token : Token
  /-- The rules being run, outermost first. -/
  stack : List String
  deriving DecidableEq, Repr

namespace RecognitionError

/-- The part of a text of `length` bytes that the error is about. -/
def span (e : RecognitionError) (length : Nat) : Span :=
  if e.token.kind.isEndOfInput then Span.emptyAt length else e.token.span

/-- The error as part of a highlight. -/
def toHighlightError (e : RecognitionError) (source : String) : HighlightError :=
  .about e.kind.highlightKind e.message source (e.span (Text.byteLength source.toList))

end RecognitionError

/-- What a run reads: the tokens, and all that is fixed when it starts. -/
structure RecognizerInput where
  vocabulary : Vocabulary
  lookahead : Lookahead
  /-- The names of the rules, by index. -/
  names : List String
  tokens : Array Token
  /-- Length of the text in bytes. -/
  length : Nat
  /-- Whether a single token that does not fit may be passed over. -/
  recovery : Bool

/-- The changing part of a run. -/
structure Recognition where
  /-- Number of tokens behind. -/
  position : Nat
  errors : List RecognitionError
  /-- The rules being run, innermost first. -/
  stack : List RuleId
  /-- Number of speculative bodies being run. -/
  speculating : Nat
  /-- The events noted so far. -/
  log : List String

namespace Recognition

/-- The start of a run. -/
def start : Recognition :=
  { position := 0, errors := [], stack := [], speculating := 0, log := [] }

end Recognition

/-- What became of a run: it ended with a value, or without one, or was cut off. -/
inductive Outcome (α : Type) where
  | finished (value : Option α) (state : Recognition)
  | unfinished

/-- Goes on where a run ended; nothing follows a run that was cut off. -/
def Outcome.andThen {α β : Type} (o : Outcome α) (next : Option α → Recognition → Outcome β) :
    Outcome β :=
  match o with
  | finished v s => next v s
  | unfinished => unfinished

/-- What follows something that follows something else. -/
theorem Outcome.andThen_assoc {α β γ : Type} (o : Outcome α)
    (f : Option α → Recognition → Outcome β) (g : Option β → Recognition → Outcome γ) :
    (o.andThen f).andThen g = o.andThen fun v s => (f v s).andThen g := by
  cases o <;> rfl

namespace RecognizerInput

variable (input : RecognizerInput)

/-- The token at the given distance ahead; the next one has distance 1, and so has 0. -/
def ahead (s : Recognition) (number : Nat) : Token :=
  input.tokens[s.position + (number - 1)]?.getD (.endOfInput input.length)

/-- Whether the token at a distance ahead fits a kind. -/
def fitsAhead (s : Recognition) (number : Nat) (kind : TokenKind) : Bool :=
  input.vocabulary.fits (input.ahead s number).kind kind

/-- Records an error at the next token. -/
def report (s : Recognition) (kind : RecognitionErrorKind) (message : String) : Recognition :=
  let error : RecognitionError :=
    { kind, message, token := input.ahead s 1,
      stack := s.stack.reverse.map fun r => input.names[r]?.getD "" }
  { s with errors := s.errors ++ [error] }

/-! ## Prediction -/

/-- The number of tokens ahead, from distance `number` on, that fit the beginning of a path. -/
def matchedFrom (s : Recognition) (number : Nat) : Path → Nat
  | [] => 0
  | kind :: rest =>
    if input.fitsAhead s number kind then matchedFrom s (number + 1) rest + 1 else 0

/-- The number of tokens ahead that fit the beginning of a path. -/
def matched (s : Recognition) (path : Path) : Nat := input.matchedFrom s 1 path

/-- The better of two candidates, given as index and depth: the deeper, or else the first. -/
def deeper (best : Option (Nat × Nat)) (candidate : Nat × Nat) : Option (Nat × Nat) :=
  match best with
  | none => some candidate
  | some b => if candidate.2 ≤ b.2 then some b else some candidate

/-- The best candidates for a prediction. -/
structure Candidates where
  /-- The longest path that fits entirely. -/
  full : Option (Nat × Nat)
  /-- The path of which the most fits. -/
  partly : Option (Nat × Nat)
  /-- The first alternative that may be empty. -/
  empty : Option Nat

/-- The candidates after one more path of the alternative at `index`. -/
def consider (s : Recognition) (index : Nat) (c : Candidates) (path : Path) : Candidates :=
  let depth := input.matched s path
  if path.isEmpty then { c with empty := c.empty <|> some index }
  else if depth = path.length then { c with full := deeper c.full (index, depth) }
  else if 0 < depth then { c with partly := deeper c.partly (index, depth) }
  else c

/--
The alternative to run: that of the longest path that fits entirely; without one, that of the
path of which the most fits, so that the error is reported where the tokens part from it; without
that, the first that may be empty. The first alternative wins among equals.
-/
def predict (s : Recognition) (table : DecisionTable) : Option Nat :=
  let c := (table.zipIdx).foldl
    (fun c (paths, index) => paths.foldl (input.consider s index) c) ⟨none, none, none⟩
  ((c.full <|> c.partly).map (·.1)) <|> c.empty

/-- The table of the decision at `site` of the rule being run, if it was recorded. -/
def table? (s : Recognition) (site : Site) : Option DecisionTable :=
  input.lookahead.table? ⟨s.stack.head?.getD 0, site⟩

/-- Whether the tokens ahead can start the body of a decision. -/
def enters (s : Recognition) (table : DecisionTable) : Bool := input.predict s table == some 0

/-- The names of the kinds that alternatives start with, each once. -/
def firstNames (table : DecisionTable) : List String :=
  (table.flatten.filterMap fun path => path.head?.map input.vocabulary.name).eraseDups

/-- The expected kinds as a message lists them. -/
def expected (table : DecisionTable) : String :=
  let names := input.firstNames table
  match names.getLast? with
  | none => "nothing"
  | some last =>
    match names.dropLast with
    | [] => last
    | others => ", ".intercalate others ++ " or " ++ last

/-- The next token as a message names it. -/
def found (s : Recognition) : String := (input.ahead s 1).describe

/-! ## Primitives -/

/-- Takes the next token if it fits, or the one after it when recovering. -/
def consume (s : Recognition) (kind : TokenKind) : Option Token × Recognition :=
  if input.fitsAhead s 1 kind then
    (some (input.ahead s 1), { s with position := s.position + 1 })
  else if input.recovery && s.speculating == 0 && input.fitsAhead s 2 kind then
    let s' := input.report s .mismatchedToken ("unexpected " ++ input.found s)
    (some (input.ahead s 2), { s' with position := s.position + 2 })
  else
    (none, input.report s .mismatchedToken
      ("expected " ++ input.vocabulary.name kind ++ " but found " ++ input.found s))

end RecognizerInput

/-- Runs something that may be taken back: position and errors are restored when it fails. -/
def speculate {α : Type} (run : Recognition → Outcome α) (s : Recognition) : Outcome α :=
  (run { s with speculating := s.speculating + 1 }).andThen fun
    | some a, s' => .finished (some a) { s' with speculating := s'.speculating - 1 }
    | none, s' =>
      .finished none
        { s' with
          position := s.position, errors := s'.errors.take s.errors.length,
          speculating := s'.speculating - 1 }

/--
Runs rounds while the tokens ahead can start one, at most `steps` of them. A round that takes no
token is the last.
-/
def repeatRounds {σ : Type} (input : RecognizerInput) (site : Site)
    (round : σ → Recognition → Outcome σ) : Nat → σ → Recognition → Outcome σ
  | 0, _, _ => .unfinished
  | steps + 1, a, s =>
    match input.table? s site with
    | some table =>
      if input.enters s table then
        (round a s).andThen fun
          | none, s' => .finished none s'
          | some a', s' =>
            if s'.position = s.position then .finished (some a') s'
            else repeatRounds input site round steps a' s'
      else .finished (some a) s
    | none =>
      (speculate (round a) s).andThen fun
        | none, s' => .finished (some a) s'
        | some a', s' =>
          if s'.position = s.position then .finished (some a') s'
          else repeatRounds input site round steps a' s'

/-- Runs the first of several bodies that succeeds. -/
def firstOf {ι α : Type} (run : ι → Recognition → Outcome α) :
    List ι → Recognition → Outcome α
  | [], s => .finished none s
  | i :: rest, s =>
    (speculate (run i) s).andThen fun
      | none, s' => firstOf run rest s'
      | some a, s' => .finished (some a) s'

namespace Body

/--
Runs a body. `find` gives the index of a rule, `invoke` runs one, and `steps` bounds the rounds of
every repetition.
-/
def run {τ α : Type} (input : RecognizerInput) (find : String → Option RuleId)
    (invoke : RuleId → Recognition → Outcome τ) (steps : Nat) :
    Body τ α → Recognition → Outcome α
  | done a, s => .finished (some a) s
  | fail, s => .finished none s
  | consume kind next, s =>
    let (t, s) := input.consume s kind
    (next t).run input find invoke steps s
  | subrule name next, s =>
    match find name with
    | none =>
      (next none).run input find invoke steps
        (input.report s .noViableAlternative ("rule `" ++ name ++ "` is not defined"))
    | some r => (invoke r s).andThen fun v s => (next v).run input find invoke steps s
  | option site body next, s =>
    match input.table? s site with
    | some table =>
      if input.enters s table then
        (body.run input find invoke steps s).andThen fun r s =>
          (next (r.map some)).run input find invoke steps s
      else (next (some none)).run input find invoke steps s
    | none =>
      (speculate (body.run input find invoke steps) s).andThen fun r s =>
        (next (some r)).run input find invoke steps s
  | many site initial round next, s =>
    (repeatRounds input site (fun a s => (round a).run input find invoke steps s) steps
        initial s).andThen fun r s => (next r).run input find invoke steps s
  | atLeastOne site initial round next, s =>
    let refused := (input.table? s site).filter (!input.enters s ·)
    match refused with
    | some table =>
      (next none).run input find invoke steps
        (input.report s .earlyExit
          ("expected at least one iteration starting with " ++ input.expected table ++
            " but found " ++ input.found s))
    | none =>
      ((round initial).run input find invoke steps s).andThen fun
        | none, s => (next none).run input find invoke steps s
        | some a, s =>
          (repeatRounds input site (fun a s => (round a).run input find invoke steps s) steps
              a s).andThen fun r s => (next r).run input find invoke steps s
  | choose site count alternatives _ next, s =>
    match input.table? s site with
    | some table =>
      match (input.predict s table).bind fun i => if h : i < count then some ⟨i, h⟩ else none with
      | some i =>
        ((alternatives i).run input find invoke steps s).andThen fun r s =>
          (next r).run input find invoke steps s
      | none =>
        (next none).run input find invoke steps
          (input.report s .noViableAlternative
            ("expected " ++ input.expected table ++ " but found " ++ input.found s))
    | none =>
      (firstOf (fun i s => (alternatives i).run input find invoke steps s)
          (List.finRange count) s).andThen fun
        | some r, s => (next (some r)).run input find invoke steps s
        | none, s =>
          (next none).run input find invoke steps
            (input.report s .noViableAlternative ("no alternative matches " ++ input.found s))
  | action event next, s =>
    next.run input find invoke steps { s with log := s.log ++ [event] }
  | lookahead number next, s => (next (input.ahead s number)).run input find invoke steps s
  | recording next, s => (next false).run input find invoke steps s
  | progress next, s =>
    (next ⟨false, s.position, input.tokens.size, s.errors.length⟩).run input find invoke steps s

/-- **A body that goes on behind another one runs behind it.** -/
theorem run_andThen {τ α β : Type} {input : RecognizerInput} {find : String → Option RuleId}
    {invoke : RuleId → Recognition → Outcome τ} {steps : Nat} (b : Body τ α)
    (f : Option α → Body τ β) (s : Recognition) :
    (b.andThen f).run input find invoke steps s
      = (b.run input find invoke steps s).andThen fun v t =>
        (f v).run input find invoke steps t := by
  induction b generalizing s with
  | done a => rfl
  | fail => rfl
  | consume kind next ih => exact ih _ f _
  | subrule name next ih =>
    simp only [andThen, run]
    split
    · exact ih none f _
    · simp only [ih, Outcome.andThen_assoc]
  | option site body next ihbody ih =>
    simp only [andThen, run]
    split
    · split
      · simp only [ih, Outcome.andThen_assoc]
      · exact ih (some none) f s
    · simp only [ih, Outcome.andThen_assoc]
  | many site initial round next ihround ih =>
    simp only [andThen, run, ih, Outcome.andThen_assoc]
  | atLeastOne site initial round next ihround ih =>
    simp only [andThen, run]
    split
    · exact ih none f _
    · rw [Outcome.andThen_assoc]
      congr 1
      funext v t
      cases v with
      | none => exact ih none f t
      | some a => simp only [ih, Outcome.andThen_assoc]
  | choose site count alternatives blank next ihalt ih =>
    simp only [andThen, run]
    split
    · split
      · simp only [ih, Outcome.andThen_assoc]
      · exact ih none f _
    · rw [Outcome.andThen_assoc]
      congr 1
      funext v t
      cases v with
      | none => exact ih none f _
      | some a => exact ih (some a) f t
  | action event next ih => exact ih f _
  | lookahead number next ih => exact ih _ f s
  | recording next ih => exact ih _ f s
  | progress next ih => exact ih _ f s

end Body

/-- Runs the body of a rule with the rule on the stack; `invoke` runs the rules that it calls. -/
def enterRule {τ : Type} (rules : List (RuleDef τ)) (input : RecognizerInput)
    (invoke : RuleId → Recognition → Outcome τ) (steps : Nat) (r : RuleId) (s : Recognition) :
    Outcome τ :=
  match rules[r]? with
  | none => .unfinished
  | some rule =>
    (rule.body.run input (ruleId? rules) invoke steps
        { s with stack := r :: s.stack }).andThen fun v s' =>
      .finished v { s' with stack := s'.stack.tail }

/-- Runs a rule within a number of steps. -/
def invokeRule {τ : Type} (rules : List (RuleDef τ)) (input : RecognizerInput) :
    Nat → RuleId → Recognition → Outcome τ
  | 0, _, _ => .unfinished
  | steps + 1, r, s => enterRule rules input (invokeRule rules input steps) steps r s

/-- Runs a rule on all tokens and reports those it leaves over. -/
def recognizeWith {τ : Type} (rules : List (RuleDef τ)) (input : RecognizerInput) (steps : Nat)
    (start : RuleId) : Outcome τ :=
  (invokeRule rules input steps start .start).andThen fun
    | some v, s =>
      if s.position < input.tokens.size then
        .finished (some v)
          (input.report s .notAllInputParsed ("expected end of input but found " ++ input.found s))
      else .finished (some v) s
    | none, s => .finished none s

end Palette
