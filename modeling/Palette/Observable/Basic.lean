import Palette.Text.Record

/-!
# Observable values

An observable holds a value and the listeners to call after every write. A listener is told that
the value changed and nothing else; it reads the value again if it cares.

A write does not call anyone itself. It returns the listeners to call, in the order in which they
subscribed, as they were at the moment of the write: a listener that subscribes or unsubscribes
while the others are being called changes only what later writes return.

Subscriptions are numbered from one, per observable, and a number is never given twice.
-/

namespace Palette

/-- What a write leaves behind: the new state, its result, and the listeners to call. -/
structure Written (σ L β : Type _) where
  state : σ
  result : β
  called : List L

namespace Written

variable {σ τ L β γ : Type _}

/-- Nothing written, nobody to call. -/
def nothing (state : σ) (result : β) : Written σ L β := ⟨state, result, []⟩

/-- One write after another; the listeners of the first are called before those of the second. -/
def andThen (w : Written σ L β) (next : σ → β → Written σ L γ) : Written σ L γ :=
  let w' := next w.state w.result
  { w' with called := w.called ++ w'.called }

/-- The write seen as a change of something larger. -/
def within (w : Written σ L β) (enclose : σ → τ) : Written τ L β :=
  ⟨enclose w.state, w.result, w.called⟩

/-- The write with another result. -/
def returning (w : Written σ L β) (result : β → γ) : Written σ L γ :=
  ⟨w.state, result w.result, w.called⟩

end Written

/-- A value with its listeners. -/
structure Observable (α L : Type _) where
  value : α
  /-- How many subscriptions were ever made. -/
  issued : Nat
  /-- The current subscriptions, oldest first, by number. -/
  listeners : List (Nat × L)
  deriving Inhabited

namespace Observable

variable {α L β : Type _}

/-- A value that nobody listens to yet. -/
def of (value : α) : Observable α L := ⟨value, 0, []⟩

/-- Adds a listener behind the others and returns the number of its subscription. -/
def subscribe (o : Observable α L) (listener : L) : Observable α L × Nat :=
  ({ o with issued := o.issued + 1, listeners := o.listeners ++ [(o.issued + 1, listener)] },
    o.issued + 1)

/-- Ends the subscription with the given number, if it is still there. -/
def unsubscribe (o : Observable α L) (number : Nat) : Observable α L :=
  { o with listeners := o.listeners.filter (·.1 != number) }

/-- Number of current subscriptions. -/
def listenerCount (o : Observable α L) : Nat := o.listeners.length

/-- Writes a value and returns every listener. -/
def write (o : Observable α L) (value : α) (result : β) : Written (Observable α L) L β :=
  { state := { o with value }, result, called := o.listeners.map (·.2) }

/-- Replaces the value. -/
def set (o : Observable α L) (value : α) : Written (Observable α L) L Unit := o.write value ()

/-- Replaces the value and returns the old one. -/
def replace (o : Observable α L) (value : α) : Written (Observable α L) L α :=
  o.write value o.value

/-- Changes the value. -/
def update (o : Observable α L) (change : α → α) : Written (Observable α L) L α :=
  o.write (change o.value) o.value

/-- Changes the value and calls everyone if `change` reports that there is something to tell. -/
def updateWhen (o : Observable α L) (change : α → α × Bool) : Written (Observable α L) L Bool :=
  let w := o.write (change o.value).1 (change o.value).2
  if w.result then w else { w with called := [] }

/-- The observable described by its value and its number of listeners. -/
def describe (o : Observable α L) (value : α → String) : String :=
  Text.record "Observable"
    [Text.field "value" (value o.value), Text.field "listeners" (toString o.listenerCount)]

@[simp] theorem listeners_write (o : Observable α L) (value : α) (result : β) :
    (o.write value result).state.listeners = o.listeners := rfl

@[simp] theorem value_write (o : Observable α L) (value : α) (result : β) :
    (o.write value result).state.value = value := rfl

@[simp] theorem value_updateWhen (o : Observable α L) (change : α → α × Bool) :
    (o.updateWhen change).state.value = (change o.value).1 := by
  unfold updateWhen
  dsimp only
  split <;> rfl

@[simp] theorem result_updateWhen (o : Observable α L) (change : α → α × Bool) :
    (o.updateWhen change).result = (change o.value).2 := by
  unfold updateWhen
  dsimp only
  split <;> rfl

/-- Everyone is called once when there is something to tell, and nobody otherwise. -/
theorem called_updateWhen (o : Observable α L) (change : α → α × Bool) :
    (o.updateWhen change).called =
      if (o.updateWhen change).result then o.listeners.map (·.2) else [] := by
  rw [result_updateWhen]
  unfold updateWhen
  dsimp only [write]
  split <;> rfl

end Observable

end Palette
