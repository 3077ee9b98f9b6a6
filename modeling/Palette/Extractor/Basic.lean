import Palette.Observable.Basic

/-!
# Extractors

An extractor lies between a generator of items and their consumer. The generator offers one item
after the other and waits for an answer to each: whether it should stop. While the extractor
runs, items are delivered at once. While it is paused, it holds back the last item offered, with
the ticket of the one who waits for the answer, until it is started again. Stopping is final and
asks for cooperation: the first to offer an item after the stop, or the one who was waiting, is
told to stop, and nobody after that gets an answer.

Every operation returns the new state and its effects in the order in which they take place. It
is atomic: what the effects set off sees the new state.
-/

namespace Palette

/-- Where an extraction is, as far as others can see. -/
inductive Phase where
  | notStarted
  | running
  | paused
  | stopped
  deriving DecidableEq, Repr

/-- The name of the phase. -/
def Phase.name : Phase → String
  | notStarted => "NotStarted"
  | running => "Running"
  | paused => "Paused"
  | stopped => "Stopped"

/-- Where an extraction is. -/
inductive Extraction (α T : Type _) where
  | notStarted
  | running
  /-- Holds back an item, if one was offered meanwhile, with the ticket of who offered it. -/
  | paused (held : Option (α × T))
  /-- `informed` tells whether someone was told to stop. -/
  | stopped (informed : Bool)

/-- What others can see of the state. -/
def Extraction.phase {α T : Type _} : Extraction α T → Phase
  | notStarted => .notStarted
  | running => .running
  | paused _ => .paused
  | stopped _ => .stopped

/-- Why an extraction does not start. -/
inductive StartError where
  /-- It has ended. -/
  | finished
  /-- There is nobody to run the generator. -/
  | noRuntime
  deriving DecidableEq, Repr

/-- The line by which the error is reported. -/
def StartError.message : StartError → String
  | finished => "can't continue after the extraction finished or was stopped"
  | noRuntime => "starting a generator requires a tokio runtime"

/-- Something that an operation sets off. -/
inductive Effect (α T L : Type _) where
  /-- Calls a listener of the phase. -/
  | call (listener : L)
  /-- Starts the generator. -/
  | launch
  /-- Gives an item to the consumer. -/
  | deliver (item : α)
  /-- Answers one who waits. -/
  | answer (ticket : T) (stop : Bool)
  /-- Tells those who wait for the end that it has come. -/
  | complete

/-- The state of an extraction with what it publishes. -/
structure Extractor (α T L : Type _) where
  state : Extraction α T
  phase : Observable Phase L
  /-- Whether those who wait for the end need to wait no more. -/
  completed : Bool

namespace Extractor

variable {α T L : Type _}

/-- An extractor that was not started. -/
def new : Extractor α T L := ⟨.notStarted, .of .notStarted, false⟩

/-- Publishes the phase of the state, if it is another one than before. -/
def publish (x : Extractor α T L) : Extractor α T L × List (Effect α T L) :=
  let w := x.phase.updateWhen fun old => (x.state.phase, old != x.state.phase)
  ({ x with phase := w.state }, w.called.map .call)

/-- Goes over to a state, which is published. -/
def enter (x : Extractor α T L) (state : Extraction α T) :
    Extractor α T L × List (Effect α T L) :=
  publish { x with state }

/-- Goes over to a final state. -/
def finish (x : Extractor α T L) (informed : Bool) : Extractor α T L × List (Effect α T L) :=
  let (x, calls) := x.enter (.stopped informed)
  ({ x with completed := true }, calls ++ [.complete])

/-- The effects of releasing a held item to the consumer. -/
def release : Option (α × T) → List (Effect α T L)
  | some (item, ticket) => [.deliver item, .answer ticket false]
  | none => []

/-- The effects of discarding a held item. -/
def discard : Option (α × T) → List (Effect α T L)
  | some (_, ticket) => [.answer ticket true]
  | none => []

/-- Starts the generator, or resumes it. -/
def start (x : Extractor α T L) (inRuntime : Bool) :
    Except StartError (Extractor α T L × List (Effect α T L)) :=
  match x.state with
  | .stopped _ => .error .finished
  | .running => .ok (x.enter .running)
  | .notStarted =>
    if inRuntime then
      let (x, calls) := x.enter .running
      .ok (x, calls ++ [.launch])
    else .error .noRuntime
  | .paused held =>
    let (x, calls) := x.enter .running
    .ok (x, calls ++ release held)

/-- Holds back what is offered from now on. -/
def pause (x : Extractor α T L) : Extractor α T L × List (Effect α T L) :=
  match x.state with
  | .running => x.enter (.paused none)
  | _ => (x, [])

/-- Stops for good. -/
def stop (x : Extractor α T L) : Extractor α T L × List (Effect α T L) :=
  match x.state with
  | .stopped _ => (x, [])
  | .paused held =>
    let (x, effects) := x.finish held.isSome
    (x, discard held ++ effects)
  | .notStarted | .running => x.finish false

/-- The generator has ended, in whatever way. -/
def generatorEnded (x : Extractor α T L) : Extractor α T L × List (Effect α T L) :=
  let held :=
    match x.state with
    | .paused held => held
    | _ => none
  let (x, effects) := x.finish true
  (x, discard held ++ effects)

/-- What an offer comes to. -/
structure Offered (α T L : Type _) where
  state : Extractor α T L
  effects : List (Effect α T L)
  /-- The answer, if there is one at once; otherwise the ticket waits for it, perhaps forever. -/
  answer : Option Bool

/-- Offers an item; the ticket stands for the one who offers it. -/
def offer (x : Extractor α T L) (item : α) (ticket : T) : Offered α T L :=
  match x.state with
  | .notStarted | .running => ⟨x, [.deliver item], some false⟩
  | .paused held =>
    let superseded := held.toList.map fun (_, earlier) => .answer earlier false
    ⟨{ x with state := .paused (some (item, ticket)) }, superseded, none⟩
  | .stopped false => ⟨{ x with state := .stopped true }, [], some true⟩
  | .stopped true => ⟨x, [], none⟩

/-- The extractor described by its phase. -/
def describe (x : Extractor α T L) : String :=
  Text.openRecord "GeneratorStreamExtractor" [Text.field "phase" x.phase.value.name]

end Extractor

end Palette
