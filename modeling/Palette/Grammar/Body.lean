import Palette.Lexer.Token

/-!
# Rule bodies

A rule is written as a body: a tree of calls to a few primitives, each with what to do with its
answer. The same body serves two readings. Recorded, it describes the grammar; run on tokens, it
recognizes them and computes a value.

A primitive answers `none` when it fails. The body decides what to do then; `bind` gives up, so a
body in `do` notation passes every failure on, while `attempt` lets it go on.

Decisions, the points where the input chooses what happens next, carry a site that tells them
apart within their rule.
-/

namespace Palette

/-- Tells the decisions of a rule apart. -/
abbrev Site := Nat

/-- What a body can see of the run it is part of. -/
structure Progress where
  recording : Bool
  position : Nat
  tokens : Nat
  errors : Nat

/-- The progress described by its fields. -/
def Progress.describe (p : Progress) : String :=
  Text.openRecord "Recognizer"
    [Text.field "recording" (Text.truth p.recording), Text.field "pos" (toString p.position),
      Text.field "tokens" (toString p.tokens), Text.field "errors" (toString p.errors)]

/-- A body with values of type `τ` for rules and of type `α` for itself. -/
inductive Body (τ : Type) : Type → Type 1 where
  /-- Ends with a value. -/
  | done {α : Type} (value : α) : Body τ α
  /-- Ends without one. -/
  | fail {α : Type} : Body τ α
  /-- Takes the next token, which has to fit `kind`. -/
  | consume {α : Type} (kind : TokenKind) (next : Option Token → Body τ α) : Body τ α
  /-- Runs the rule called `name`. -/
  | subrule {α : Type} (name : String) (next : Option τ → Body τ α) : Body τ α
  /-- Runs `body` if the tokens ahead can start it. -/
  | option {α β : Type} (site : Site) (body : Body τ β) (next : Option (Option β) → Body τ α) :
      Body τ α
  /-- Runs `round` as long as the tokens ahead can start it. -/
  | many {α σ : Type} (site : Site) (initial : σ) (round : σ → Body τ σ)
      (next : Option σ → Body τ α) : Body τ α
  /-- Runs `round` once, and then as long as the tokens ahead can start it. -/
  | atLeastOne {α σ : Type} (site : Site) (initial : σ) (round : σ → Body τ σ)
      (next : Option σ → Body τ α) : Body τ α
  /-- Runs the alternative that the tokens ahead call for; recorded, the value is `blank`. -/
  | choose {α β : Type} (site : Site) (count : Nat) (alternatives : Fin count → Body τ β)
      (blank : β) (next : Option β → Body τ α) : Body τ α
  /-- Notes an event, except while recording. -/
  | action {α : Type} (event : String) (next : Body τ α) : Body τ α
  /-- Looks at a token ahead; the next one has number 1. -/
  | lookahead {α : Type} (number : Nat) (next : Token → Body τ α) : Body τ α
  /-- Asks whether the body is being recorded. -/
  | recording {α : Type} (next : Bool → Body τ α) : Body τ α
  /-- Asks how far the run is. -/
  | progress {α : Type} (next : Progress → Body τ α) : Body τ α

namespace Body

variable {τ α β σ : Type}

/-- Goes on with `f`, whatever came of the body. -/
def andThen (b : Body τ α) (f : Option α → Body τ β) : Body τ β :=
  match b with
  | done a => f (some a)
  | fail => f none
  | consume kind next => consume kind fun t => (next t).andThen f
  | subrule name next => subrule name fun v => (next v).andThen f
  | option site body next => option site body fun r => (next r).andThen f
  | many site initial round next => many site initial round fun r => (next r).andThen f
  | atLeastOne site initial round next =>
    atLeastOne site initial round fun r => (next r).andThen f
  | choose site count alternatives blank next =>
    choose site count alternatives blank fun r => (next r).andThen f
  | action event next => action event (next.andThen f)
  | lookahead number next => lookahead number fun t => (next t).andThen f
  | recording next => recording fun b => (next b).andThen f
  | progress next => progress fun p => (next p).andThen f

/-- The body with its failure as a value. -/
def attempt (b : Body τ α) : Body τ (Option α) := b.andThen done

/-- Gives up after a failure and otherwise goes on with `f`. -/
def bind (b : Body τ α) (f : α → Body τ β) : Body τ β :=
  b.andThen fun
    | some a => f a
    | none => fail

instance : Monad (Body τ) where
  pure := done
  bind := bind

/-- What to do with an answer when failures are passed on. -/
def orFail : Option α → Body τ α
  | some a => done a
  | none => fail

/-- Takes the next token. -/
def take (kind : TokenKind) : Body τ Token := consume kind orFail

/-- Runs a rule. -/
def call (name : String) : Body τ τ := subrule name orFail

/-- Runs a body if the tokens ahead can start it. -/
def perhaps (site : Site) (body : Body τ α) : Body τ (Option α) := option site body orFail

/-- Runs rounds while the tokens ahead can start one, handing a value from each to the next. -/
def loop (site : Site) (initial : σ) (round : σ → Body τ σ) : Body τ σ :=
  many site initial round orFail

/-- Runs one of several bodies. -/
def oneOf (site : Site) (blank : α) (alternatives : List (Body τ α)) : Body τ α :=
  choose site alternatives.length alternatives.get blank orFail

end Body

end Palette
