import Palette.Collections.SortedList
import Palette.Menu.Entry

/-!
# Menus

A menu keeps entries sorted by priority, a cursor, a selection, and the generators that still
feed it. Entries can be added in batches: they are pending until the menu is flushed, and then
merged into the list at once. Whoever reads the items flushes the menu first. While entries are
pending a timer is running that will flush the menu, started anew with every entry that joins
them.

Every operation tells which listeners to call. `timersSet` counts the timers ever started; those
in `timers` have neither run down nor been called off.
-/

namespace Palette

/-- Tells generators apart. -/
abbrev GeneratorId := Nat

/-- Tells timers apart. -/
abbrev TimerId := Nat

/-- What is fixed when a menu is made. -/
structure MenuConfig where
  /-- Milliseconds from the last entry that joins a batch to its merging. -/
  batchDelay : Nat
  /-- How many items to keep. -/
  maxItems : Option Nat
  order : SortOrder
  deriving DecidableEq, Repr

/-- A tenth of a second, any number of items, the highest priority first. -/
def MenuConfig.standard : MenuConfig := ⟨100, none, .highestFirst⟩

instance : Inhabited MenuConfig := ⟨.standard⟩

/-- Items of type `ι` with priorities of type `π`, watched by listeners of type `L`. -/
structure Menu (ι π L : Type) where
  config : MenuConfig
  entries : SortedList (MenuEntry ι π) L
  cursor : Observable (Option ι) L
  selected : Observable (List ι) L
  generators : Observable (List GeneratorId) L
  pending : List (MenuEntry ι π)
  /-- The timer that was started last, unless it was called off. -/
  timer : Option TimerId
  /-- The timers that are running. -/
  timers : List TimerId
  timersSet : Nat

/-- What initially fills a menu. -/
inductive MenuSource (ι γ : Type) where
  | items (items : List ι)
  | generator (generator : γ)

/-- The source described by its kind. -/
def MenuSource.describe {ι γ : Type} : MenuSource ι γ → String
  | .items list => "Items(" ++ toString list.length ++ ")"
  | .generator _ => "Generator"

namespace Menu

variable {ι π L β : Type} [BEq ι] [Priority π]

/-- The result of an operation with the listeners to call. -/
abbrev Op (ι π L β : Type) := Written (Menu ι π L) L β

/-- An empty menu. -/
def new (config : MenuConfig) : Menu ι π L where
  config := config
  entries := .empty fun a b => config.order.precedes a.priority b.priority
  cursor := .of none
  selected := .of []
  generators := .of []
  pending := []
  timer := none
  timers := []
  timersSet := 0

/-! ## Changes of the parts -/

/-- Changes the list of entries. -/
def onEntries (m : Menu ι π L) (w : Written (SortedList (MenuEntry ι π) L) L β) : Op ι π L β :=
  w.within fun entries => { m with entries }

/-- Changes the generators. -/
def onGenerators (m : Menu ι π L) (w : Written (Observable (List GeneratorId) L) L β) :
    Op ι π L β :=
  w.within fun generators => { m with generators }

/-! ## Timers and flushing -/

/-- Calls off the timer that was started last. -/
def callOff (m : Menu ι π L) : Menu ι π L :=
  match m.timer with
  | some timer => { m with timer := none, timers := m.timers.filter (· != timer) }
  | none => m

/-- Starts a timer. -/
def setTimer (m : Menu ι π L) : Menu ι π L :=
  { m with timer := some m.timersSet, timers := m.timers ++ [m.timersSet],
           timersSet := m.timersSet + 1 }

/-- Merges the pending entries into the list. -/
def flush (m : Menu ι π L) : Op ι π L Unit :=
  let m := m.callOff
  match m.pending with
  | [] => .nothing m ()
  | pending =>
    ({ m with pending := [] }.onEntries (m.entries.addAll pending m.config.maxItems)).returning
      fun _ => ()

/-- A timer has run down; unless it was called off, it flushes the menu. -/
def timerDue (m : Menu ι π L) (timer : TimerId) : Op ι π L Unit :=
  if m.timers.contains timer then
    { m with timers := m.timers.filter (· != timer) }.flush
  else .nothing m ()

/-! ## Adding -/

/-- Adds an entry to those pending. Without a runtime there are no timers and it is merged. -/
def enqueue (m : Menu ι π L) (inRuntime : Bool) (entry : MenuEntry ι π) : Op ι π L Unit :=
  let m := { m with pending := m.pending ++ [entry] }.callOff
  if inRuntime then .nothing m.setTimer () else m.flush

/-- Adds an entry. -/
def addEntry (m : Menu ι π L) (inRuntime batch : Bool) (entry : MenuEntry ι π) : Op ι π L Unit :=
  if batch then m.enqueue inRuntime entry
  else (m.onEntries (m.entries.add entry m.config.maxItems)).returning fun _ => ()

/-- A priority behind all entries, pending ones included. -/
def tailPriority (m : Menu ι π L) : π :=
  let order := m.config.order
  let listed := m.entries.toList.getLast?.map (·.priority)
  let pending :=
    match m.pending.map (·.priority) with
    | [] => none
    | a :: rest => some (rest.foldl order.last a)
  order.behind (listed.toList ++ pending.toList)

/-- A priority between the listed entries before `index` and those from there on. -/
def priorityAt (m : Menu ι π L) (index : Nat) : π :=
  let listed := m.entries.toList
  let index := min index listed.length
  let before := if index = 0 then none else listed[index - 1]?
  m.config.order.between (before.map (·.priority)) (listed[index]?.map (·.priority))

/-- Adds an item behind all others. -/
def addItem (m : Menu ι π L) (inRuntime batch : Bool) (item : ι) : Op ι π L Unit :=
  m.addEntry inRuntime batch ⟨m.tailPriority, item⟩

/-- Adds an item at an index of the list. -/
def addItemAt (m : Menu ι π L) (inRuntime batch : Bool) (item : ι) (index : Nat) :
    Op ι π L Unit :=
  m.addEntry inRuntime batch ⟨m.priorityAt index, item⟩

/-- Adds items one after the other. -/
def addItems (m : Menu ι π L) (inRuntime batch : Bool) (items : List ι) : Op ι π L Unit :=
  items.foldl (fun w item => w.andThen fun m _ => m.addItem inRuntime batch item) (.nothing m ())

/-! ## Removing -/

/-- Removes the pending entries that `leaves` picks; the result tells whether there were any. -/
def removePending (m : Menu ι π L) (leaves : MenuEntry ι π → Bool) : Op ι π L Bool :=
  let kept := m.pending.filter (!leaves ·)
  .nothing { m with pending := kept } (kept.length != m.pending.length)

/-- Removes an entry, listed or pending. -/
def removeEntry (m : Menu ι π L) (entry : MenuEntry ι π) : Op ι π L Bool :=
  (m.removePending (· == entry)).andThen fun m pending =>
    (m.onEntries (m.entries.remove entry)).returning (pending || ·)

/-- Removes the first listed entry of an item and all pending ones. -/
def removeItem (m : Menu ι π L) (item : ι) : Op ι π L Bool :=
  (m.removePending (·.holds item)).andThen fun m pending =>
    match m.entries.toList.find? (·.holds item) with
    | some entry => (m.onEntries (m.entries.remove entry)).returning (pending || ·)
    | none => .nothing m pending

/-! ## Reading -/

/-- The entries in order, with none pending. -/
def readEntries (m : Menu ι π L) : Op ι π L (List (MenuEntry ι π)) :=
  let w := m.flush
  w.returning fun _ => w.state.entries.toList

/-- The items in order, with none pending. -/
def readItems (m : Menu ι π L) : Op ι π L (List ι) :=
  m.readEntries.returning (·.map (·.item))

/-- The cursor, or the first item if none was set. -/
def readCursor (m : Menu ι π L) : Op ι π L (Option ι) :=
  match m.cursor.value with
  | some item => .nothing m (some item)
  | none => m.readItems.returning (·.head?)

/-- Whether generators feed the menu. -/
def isLoading (m : Menu ι π L) : Bool := !m.generators.value.isEmpty

/-! ## Cursor, selection and generators -/

/-- Sets the cursor. -/
def setCursor (m : Menu ι π L) (item : Option ι) : Op ι π L Unit :=
  (m.cursor.set item).within fun cursor => { m with cursor }

/-- Selects an item or takes it out of the selection. -/
def setSelected (m : Menu ι π L) (item : ι) (selected : Bool) : Op ι π L Unit :=
  let change (items : List ι) : List ι × Bool :=
    match selected, items.contains item with
    | true, false => (items ++ [item], true)
    | false, true => (items.filter (· != item), true)
    | _, _ => (items, false)
  ((m.selected.updateWhen change).within fun selected => { m with selected }).returning fun _ => ()

/-- Takes note of a generator that feeds the menu. -/
def track (m : Menu ι π L) (generator : GeneratorId) : Op ι π L Unit :=
  (m.onGenerators (m.generators.update (· ++ [generator]))).returning fun _ => ()

/-- Forgets a generator. -/
def forget (m : Menu ι π L) (generator : GeneratorId) : Op ι π L Unit :=
  let change (ids : List GeneratorId) : List GeneratorId × Bool :=
    let others := ids.filter (· != generator)
    (others, others.length != ids.length)
  (m.onGenerators (m.generators.updateWhen change)).returning fun _ => ()

/-! ## Watching -/

/-- Subscribes a listener to the list of entries, which is read first. -/
def watchEntries (m : Menu ι π L) (listener : L) : Op ι π L Unit :=
  m.flush.andThen fun m _ =>
    let entries := { m.entries with items := (m.entries.items.subscribe listener).1 }
    .nothing { m with entries } ()

/-- Subscribes a listener to the selection. -/
def watchSelected (m : Menu ι π L) (listener : L) : Op ι π L Unit :=
  .nothing { m with selected := (m.selected.subscribe listener).1 } ()

/-- Subscribes a listener to the generators. -/
def watchGenerators (m : Menu ι π L) (listener : L) : Op ι π L Unit :=
  .nothing { m with generators := (m.generators.subscribe listener).1 } ()

/-- Subscribes a listener to the cursor, and to the entries too if they decide where it is. -/
def watchCursor (m : Menu ι π L) (listener : L) : Op ι π L Unit :=
  let m := { m with cursor := (m.cursor.subscribe listener).1 }
  if m.cursor.value.isSome then .nothing m () else m.watchEntries listener

/-- The menu described by its entries and how much is under way. -/
def describe (m : Menu ι π L) (item : ι → String) (priority : π → String) : String :=
  Text.openRecord "AsyncMenu"
    [Text.field "items" (Text.bracketed (m.entries.toList.map (·.describe item priority))),
      Text.field "pending" (toString m.pending.length),
      Text.field "generators" (toString m.generators.value.length)]

end Menu

end Palette
