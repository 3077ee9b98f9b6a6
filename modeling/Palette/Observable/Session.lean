import Palette.Observable.Registry

/-!
# Sessions

A session gives names to observables, subscriptions and hooks and performs steps on them. A
listener writes a line into the log when it is called, and may then perform a step of its own, at
once and a limited number of times. That step may write observables, so calls nest: a listener is
done with its reaction before the next one is called.

## Termination

A reaction is a part of the step that made the listener, and every time it begins, one of its
times is used up. Counting every part of a step once for each time that it can be performed gives
its weight; the weights of all reactions that are left bound how deep calls can nest.
-/

namespace Palette

mutual

/-- A step of a session. -/
inductive Step where
  /-- Makes an observable and gives it a name, dropping the one that had it. -/
  | create (observable : String) (value : Int)
  | drop (observable : String)
  /-- Reads an observable, through a hook if one is given. -/
  | get (observable : String) (hook : Option String)
  /-- Reads twice the value of an observable, through a hook if one is given. -/
  | getTwice (observable : String) (hook : Option String)
  | set (observable : String) (value : Int)
  | replace (observable : String) (value : Int)
  /-- Adds to the value of an observable. -/
  | update (observable : String) (amount : Int)
  /-- Sets the value of an observable if it is another one. -/
  | updateIf (observable : String) (value : Int)
  | listenerCount (observable : String)
  | describe (observable : String)
  /-- Subscribes a listener; the subscription that had the name ends after that. -/
  | subscribe (observable name : String) (reaction : Reaction)
  | dispose (name : String)
  /-- Forgets a subscription without ending it. -/
  | detach (name : String)
  /-- Makes a hook, dropping the one that had the name. -/
  | hook (name : String) (reaction : Reaction)
  | disposeHook (name : String)
  | dropHook (name : String)
  | countHook (name : String)
  | describeHook (name : String)

/-- What a listener does besides writing into the log. -/
inductive Reaction where
  | none
  | perform (times : Nat) (step : Step)

end

mutual

/-- The weight of a step: the parts of its reaction, once for each time they can be performed. -/
def Step.weight : Step → Nat
  | .subscribe _ _ reaction => reaction.weight + 1
  | .hook _ reaction => reaction.weight + 1
  | _ => 1

/-- The weight of a reaction. -/
def Reaction.weight : Reaction → Nat
  | .none => 0
  | .perform times step => times * step.weight

end

/-- The result of a step. -/
inductive Answer where
  | none
  | number (n : Int)
  | truth (b : Bool)
  | text (s : String)
  deriving DecidableEq, Repr

/-- A listener of a session. -/
structure Listener where
  name : String
  /-- The name of the observable whose value is written into the log. -/
  shows : Option String
  reaction : Reaction

/-- Names with what they stand for. -/
abbrev Names (β : Type) := List (String × β)

namespace Names

variable {β : Type}

/-- The names without one of them. -/
def forget (names : Names β) (name : String) : Names β := names.filter (·.1 != name)

/-- Gives a name to something. -/
def assign (names : Names β) (name : String) (b : β) : Names β := (name, b) :: names.forget name

end Names

/-- The state of a session. Listeners are known to the registry by their index. -/
structure Session where
  registry : Registry Int Nat
  listeners : List Listener
  observables : Names ObservableId
  subscriptions : Names Subscription
  hooks : Names HookId
  /-- The lines written by listeners. -/
  log : List String

namespace Session

/-- Nothing yet. -/
def empty : Session := ⟨.empty, [], [], [], [], []⟩

/-- The observable with the given name. -/
def observable? (s : Session) (name : String) : Option (Observable Int Nat) :=
  (s.observables.lookup name).bind s.registry.observable?

/-- The hook with the given name. -/
def hook? (s : Session) (name : String) : Option (Hook Nat) :=
  (s.hooks.lookup name).bind s.registry.hook?

/-- Writes a line into the log. -/
def note (s : Session) (line : String) : Session := { s with log := s.log ++ [line] }

/-- The line that a listener writes when it is called. -/
def line (s : Session) (l : Listener) : String :=
  match l.shows.bind s.observable? with
  | some o => l.name ++ "=" ++ toString o.value
  | none => l.name

/-- Adds a listener. -/
def addListener (s : Session) (l : Listener) : Session × Nat :=
  ({ s with listeners := s.listeners ++ [l] }, s.listeners.length)

/-- The weight of all reactions that are left. -/
def weight (s : Session) : Nat := (s.listeners.map (·.reaction.weight)).foldl (· + ·) 0

/-- A step's answer, or `none` when it names what is not there. -/
abbrev Performed := Option Answer × Session

/-- Calls a listener, whose reaction is performed by `react`. -/
def call (react : Session → Step → Performed) (s : Session) (listener : Nat) : Session :=
  match s.listeners[listener]? with
  | none => s
  | some l =>
    let s := s.note (s.line l)
    match l.reaction with
    | .perform (times + 1) step =>
      let l := { l with reaction := .perform times step }
      let (answer, s) := react { s with listeners := s.listeners.set listener l } step
      if answer.isNone then s.note (l.name ++ " failed") else s
    | _ => s

/-- Writes an observable and calls its listeners. -/
def write {β : Type} (react : Session → Step → Performed) (s : Session) (name : String)
    (change : Observable Int Nat → Written (Observable Int Nat) Nat β) (answer : β → Answer) :
    Performed :=
  match (s.observables.lookup name).bind (s.registry.write? · change) with
  | none => (none, s)
  | some w =>
    (some (answer w.result), w.called.foldl (call react) { s with registry := w.state })

/-- Reads an observable, through a hook if one is given. -/
def read (s : Session) (name : String) (hook : Option String) (answer : Int → Answer) :
    Performed :=
  match s.observables.lookup name, s.observable? name, hook with
  | some _, some o, none => (some (answer o.value), s)
  | some id, some o, some hook =>
    match s.hooks.lookup hook with
    | some h => (some (answer o.value), { s with registry := s.registry.watch h id })
    | none => (none, s)
  | _, _, _ => (none, s)

/-- Ends the subscription with the given name, if there is one. -/
def endSubscription (s : Session) (name : String) : Session :=
  match s.subscriptions.lookup name with
  | some subscription => { s with registry := s.registry.unsubscribe subscription }
  | none => s

/-- Drops the observable with the given name, if there is one. -/
def dropObservable (s : Session) (name : String) : Session :=
  match s.observables.lookup name with
  | some id => { s with registry := s.registry.drop id }
  | none => s

/-- Drops the hook with the given name, if there is one. -/
def dropHook (s : Session) (name : String) : Session :=
  match s.hooks.lookup name with
  | some id => { s with registry := s.registry.dropHook id }
  | none => s

/-- Answers with what `view` shows of something that is there. -/
def look {γ : Type} (s : Session) (found : Option γ) (view : γ → Answer) : Performed :=
  (found.map view, s)

/-- Performs a step, with reactions nested at most `depth` deep. -/
def perform : (depth : Nat) → Session → Step → Performed
  | 0, s, _ => (none, s)
  | depth + 1, s, step =>
    let react := perform depth
    match step with
    | .create name value =>
      let (registry, id) := (s.dropObservable name).registry.create value
      (some .none, { s with registry, observables := s.observables.assign name id })
    | .drop name =>
      let known := (s.observables.lookup name).isSome
      (some (.truth known),
        { s.dropObservable name with observables := s.observables.forget name })
    | .get name hook => s.read name hook .number
    | .getTwice name hook => s.read name hook fun n => .number (2 * n)
    | .set name value => s.write react name (·.set value) fun _ => .none
    | .replace name value => s.write react name (·.replace value) .number
    | .update name amount => s.write react name (·.update (· + amount)) .number
    | .updateIf name value =>
      s.write react name (·.updateWhen fun old => (value, old != value)) .truth
    | .listenerCount name => s.look (s.observable? name) fun o => .number o.listenerCount
    | .describe name => s.look (s.observable? name) fun o => .text (o.describe toString)
    | .subscribe observable name reaction =>
      let (s', listener) := s.addListener { name, shows := some observable, reaction }
      match (s.observables.lookup observable).bind (s.registry.subscribe? · listener) with
      | none => (none, s)
      | some (registry, subscription) =>
        let s' := { s' with registry }.endSubscription name
        (some (.text subscription.describe),
          { s' with subscriptions := s'.subscriptions.assign name subscription })
    | .dispose name =>
      let known := (s.subscriptions.lookup name).isSome
      (some (.truth known),
        { s.endSubscription name with subscriptions := s.subscriptions.forget name })
    | .detach name =>
      let known := (s.subscriptions.lookup name).isSome
      (some (.truth known), { s with subscriptions := s.subscriptions.forget name })
    | .hook name reaction =>
      let (s', listener) := (s.dropHook name).addListener { name, shows := none, reaction }
      let (registry, id) := s'.registry.createHook listener
      (some .none, { s' with registry, hooks := s.hooks.assign name id })
    | .disposeHook name =>
      match s.hooks.lookup name with
      | some id => (some .none, { s with registry := s.registry.disposeHook id })
      | none => (none, s)
    | .dropHook name =>
      let known := (s.hooks.lookup name).isSome
      (some (.truth known), { s.dropHook name with hooks := s.hooks.forget name })
    | .countHook name => s.look (s.hook? name) fun h => .number h.subscriptionCount
    | .describeHook name => s.look (s.hook? name) fun h => .text h.describe

/-- Performs a step with all reactions, and gives the lines written meanwhile. -/
def run (s : Session) (step : Step) : Option (Answer × List String × Session) :=
  let (answer, s) := perform (s.weight + step.weight) { s with log := [] } step
  answer.map fun answer => (answer, s.log, s)

end Session

end Palette
