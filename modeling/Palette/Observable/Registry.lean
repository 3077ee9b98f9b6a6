import Palette.Observable.Basic

/-!
# Observables, subscriptions and hooks together

A registry holds any number of observables and hooks. A subscription names its observable and
its number there, so it can be ended after the observable is gone, which does nothing.

A hook is a listener that observables are read through: reading an observable subscribes the
hook, unless it is subscribed already. Disposing of a hook ends all its subscriptions, and it can
be read through again. A hook keeps its subscriptions to observables that are gone.

Ids are given in order and never twice; what is dropped leaves a gap.
-/

namespace Palette

/-- Tells observables apart. -/
abbrev ObservableId := Nat

/-- Tells hooks apart. -/
abbrev HookId := Nat

/-- A subscription to an observable. -/
structure Subscription where
  observable : ObservableId
  /-- The number that the observable gave. -/
  number : Nat
  deriving DecidableEq, Repr

/-- The subscription described by its number. -/
def Subscription.describe (s : Subscription) : String :=
  Text.record "Subscription" [Text.field "id" (toString s.number)]

/-- A listener that observables are read through. -/
structure Hook (L : Type _) where
  callback : L
  /-- At most one subscription per observable, oldest first. -/
  subscriptions : List Subscription

namespace Hook

variable {L : Type _}

/-- A hook that nothing was read through. -/
def of (callback : L) : Hook L := ⟨callback, []⟩

/-- Whether the hook is subscribed to an observable. -/
def watches (h : Hook L) (id : ObservableId) : Bool := h.subscriptions.any (·.observable == id)

/-- Number of subscriptions. -/
def subscriptionCount (h : Hook L) : Nat := h.subscriptions.length

/-- The hook described by its number of subscriptions. -/
def describe (h : Hook L) : String :=
  Text.openRecord "Hook" [Text.field "subscriptions" (toString h.subscriptionCount)]

end Hook

/-- Observables with values of type `α` and hooks, by id. -/
structure Registry (α L : Type _) where
  observables : List (Option (Observable α L))
  hooks : List (Option (Hook L))

namespace Registry

variable {α L β : Type _}

/-- Nothing yet. -/
def empty : Registry α L := ⟨[], []⟩

/-- The observable with the given id. -/
def observable? (r : Registry α L) (id : ObservableId) : Option (Observable α L) :=
  r.observables[id]?.join

/-- The hook with the given id. -/
def hook? (r : Registry α L) (id : HookId) : Option (Hook L) := r.hooks[id]?.join

/-- Adds an observable. -/
def create (r : Registry α L) (value : α) : Registry α L × ObservableId :=
  ({ r with observables := r.observables ++ [some (.of value)] }, r.observables.length)

/-- Puts an observable in the place of the one with the given id. -/
def put (r : Registry α L) (id : ObservableId) (o : Observable α L) : Registry α L :=
  { r with observables := r.observables.set id (some o) }

/-- Drops an observable with all its listeners. -/
def drop (r : Registry α L) (id : ObservableId) : Registry α L :=
  { r with observables := r.observables.set id none }

/-- Subscribes a listener. -/
def subscribe? (r : Registry α L) (id : ObservableId) (listener : L) :
    Option (Registry α L × Subscription) :=
  (r.observable? id).map fun o =>
    let (o, number) := o.subscribe listener
    (r.put id o, ⟨id, number⟩)

/-- Ends a subscription. -/
def unsubscribe (r : Registry α L) (s : Subscription) : Registry α L :=
  match r.observable? s.observable with
  | some o => r.put s.observable (o.unsubscribe s.number)
  | none => r

/-- Writes an observable as `change` says. -/
def write? (r : Registry α L) (id : ObservableId)
    (change : Observable α L → Written (Observable α L) L β) :
    Option (Written (Registry α L) L β) :=
  (r.observable? id).map fun o =>
    let w := change o
    { state := r.put id w.state, result := w.result, called := w.called }

/-- Adds a hook. -/
def createHook (r : Registry α L) (callback : L) : Registry α L × HookId :=
  ({ r with hooks := r.hooks ++ [some (.of callback)] }, r.hooks.length)

/-- Puts a hook in the place of the one with the given id. -/
def putHook (r : Registry α L) (id : HookId) (h : Hook L) : Registry α L :=
  { r with hooks := r.hooks.set id (some h) }

/-- Subscribes a hook to an observable, unless it is subscribed already. -/
def watch (r : Registry α L) (hook : HookId) (id : ObservableId) : Registry α L :=
  match r.hook? hook, r.observable? id with
  | some h, some o =>
    if h.watches id then r
    else
      let (o, number) := o.subscribe h.callback
      (r.put id o).putHook hook { h with subscriptions := h.subscriptions ++ [⟨id, number⟩] }
  | _, _ => r

/-- Ends all subscriptions of a hook. -/
def disposeHook (r : Registry α L) (hook : HookId) : Registry α L :=
  match r.hook? hook with
  | some h => (h.subscriptions.foldl unsubscribe r).putHook hook { h with subscriptions := [] }
  | none => r

/-- Drops a hook with all its subscriptions. -/
def dropHook (r : Registry α L) (hook : HookId) : Registry α L :=
  let r := r.disposeHook hook
  { r with hooks := r.hooks.set hook none }

end Registry

end Palette
