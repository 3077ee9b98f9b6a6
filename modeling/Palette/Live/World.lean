import Palette.Live.Schedule
import Palette.Live.Task

/-!
# Menus at work

A world holds a menu, the extractors that feed it and the jobs that take turns: tasks of
generators, timers, and the jobs that look after an extraction until its end. An extractor can
also work without a menu; its items are then collected.

Without a runtime there are no jobs, and so no generator can be started.

## Termination

A turn of a job runs its task up to a step that lets others take over, by recursion on the
script. Every turn uses up some of the weight of the world, so the weight bounds the number of
turns; between two turns time passes at most once.
-/

namespace Palette

/-- What becomes of the items of an extractor. -/
inductive Consumer where
  | collect
  | addToMenu (batch : Bool)

/-- A generator with its extractor. -/
structure Feed where
  extractor : Extractor String Ticket Watcher
  source : GeneratorDef
  consumer : Consumer
  /-- Whether a job waits for the end of the extraction. -/
  awaited : Bool

/-- A future that is ready once an extraction has ended. -/
structure Completion where
  generator : GeneratorId
  /-- Whether the menu forgets the generator when the future is found ready. -/
  forgets : Bool

/-- The state of everything. -/
structure World where
  inRuntime : Bool
  schedule : Schedule Job
  feeds : List Feed
  menu : Option (Menu String Float Watcher)
  completions : List Completion
  /-- Generators kept for later use. -/
  kept : List GeneratorId
  /-- The items delivered to no menu, in order. -/
  collected : List String
  /-- The watchers called, in order. -/
  calls : List Watcher
  /-- The lines written by generators. -/
  log : List String

namespace World

/-- Nothing yet. -/
def empty (inRuntime : Bool) : World :=
  { inRuntime, schedule := .empty, feeds := [], menu := none, completions := [], kept := [],
    collected := [], calls := [], log := [] }

/-- Writes a line into the log. -/
def note (w : World) (line : String) : World := { w with log := w.log ++ [line] }

/-- Adds a job. -/
def add (w : World) (job : Job) : World := { w with schedule := w.schedule.add job }

/-- The phase of an extractor as published. -/
def phase (w : World) (id : GeneratorId) : Phase :=
  (w.feeds[id]?.map (·.extractor.phase.value)).getD .notStarted

/-- Whether an extraction has ended. -/
def isCompleted (w : World) (id : GeneratorId) : Bool :=
  (w.feeds[id]?.map (·.extractor.completed)).getD false

/-- Puts the state of an extractor in its place. -/
def setExtractor (w : World) (id : GeneratorId) (x : Extractor String Ticket Watcher) : World :=
  { w with feeds := w.feeds.modify id fun f => { f with extractor := x } }

/-! ## The menu -/

/-- Operates on the menu: calls the listeners and lets new timers run. -/
def onMenu {β : Type} (w : World) (f : Menu String Float Watcher → Menu.Op String Float Watcher β) :
    Option (β × World) :=
  w.menu.map fun m =>
    let o := f m
    let timers := List.range' m.timersSet (o.state.timersSet - m.timersSet)
    (o.result,
      timers.foldl (fun w timer => w.add (.timerSet timer))
        { w with menu := some o.state, calls := w.calls ++ o.called })

/-- Operates on the menu, if it is still there. -/
def tellMenu (w : World) (f : Menu String Float Watcher → Menu.Op String Float Watcher Unit) :
    World :=
  ((w.onMenu f).map (·.2)).getD w

/-! ## Effects of extractors -/

/-- Gives an item to the consumer of an extractor. -/
def deliver (w : World) (id : GeneratorId) (item : String) : World :=
  match w.feeds[id]? with
  | some ⟨_, _, .addToMenu batch, _⟩ => w.tellMenu (·.addItem w.inRuntime batch item)
  | _ => { w with collected := w.collected ++ [item] }

/-- Starts the task of a generator. -/
def launch (w : World) (id : GeneratorId) : World :=
  match w.feeds[id]? with
  | some f => w.add (.run (.ofDef id f.source))
  | none => w

/-- Wakes the job that waits for the end of an extraction. -/
def wakeAwaiting (w : World) (id : GeneratorId) : World :=
  match w.feeds[id]? with
  | some f =>
    if f.awaited then
      { w with feeds := w.feeds.set id { f with awaited := false } }.add (.lookAfter id)
    else w
  | none => w

/-- Lets an effect of an extractor take place. -/
def perform (id : GeneratorId) (w : World) : Effect String Ticket Watcher → World
  | .call listener => { w with calls := w.calls ++ [listener] }
  | .launch => w.launch id
  | .deliver item => w.deliver id item
  | .answer ticket stop => w.add (.answered ticket stop)
  | .complete => w.wakeAwaiting id

/-- Puts the state of an extractor in its place and lets the effects take place. -/
def apply (w : World) (id : GeneratorId) (x : Extractor String Ticket Watcher)
    (effects : List (Effect String Ticket Watcher)) : World :=
  effects.foldl (perform id) (w.setExtractor id x)

/-- Operates on an extractor. -/
def onExtractor (w : World) (id : GeneratorId)
    (f : Extractor String Ticket Watcher →
      Extractor String Ticket Watcher × List (Effect String Ticket Watcher)) : World :=
  match w.feeds[id]? with
  | some feed =>
    let (x, effects) := f feed.extractor
    w.apply id x effects
  | none => w

/-- Starts or resumes an extraction. -/
def start (w : World) (id : GeneratorId) : Except StartError World :=
  match w.feeds[id]? with
  | some f => (f.extractor.start w.inRuntime).map fun (x, effects) => w.apply id x effects
  | none => .ok w

/-- Pauses an extraction. -/
def pause (w : World) (id : GeneratorId) : World := w.onExtractor id (·.pause)

/-- Stops an extraction. -/
def stop (w : World) (id : GeneratorId) : World := w.onExtractor id (·.stop)

/-! ## Turns -/

/-- The task is over, and with it the extraction if it is the root. -/
def endTask (w : World) (t : Task) : World :=
  if t.root then w.onExtractor t.generator (·.generatorEnded) else w

/-- The script has come to its end. -/
def endScript (w : World) (t : Task) : World := (w.note (t.name ++ ": end")).endTask t

/-- Offers an item; the result is the answer, if there is one at once. -/
def offer (w : World) (t : Task) (item : String) : World × Option Bool :=
  match w.feeds[t.generator]? with
  | some f =>
    let o := f.extractor.offer item ⟨t, item⟩
    (w.apply t.generator o.state o.effects, o.answer)
  | none => (w, none)

/-- Writes the answer to an item into the log. -/
def noteAnswer (w : World) (t : Task) (item : String) (stop : Bool) : World :=
  w.note (t.name ++ ": " ++ item ++ " -> " ++ Text.truth stop)

/-- Runs a script up to a step that lets others take over. -/
def runScript (t : Task) (w : World) : List GeneratorStep → World
  | [] => w.endScript t
  | .offer item :: rest =>
    match w.offer { t with rest } item with
    | (w, none) => w
    | (w, some stop) =>
      let w := w.noteAnswer t item stop
      if stop && !t.stubborn then w.endScript t else runScript t w rest
  | .sleep duration :: rest =>
    if duration = 0 then runScript t w rest
    else { w with schedule := w.schedule.sleep duration (.run { t with rest }) }
  | .spawn script :: rest => runScript t (w.add (.run (t.child script))) rest
  | .crash :: _ => w.endTask t
  | .describe :: rest => runScript t (w.note "Emitter \x7b .. \x7d") rest
  | .yield :: rest => { w with schedule := w.schedule.yield (.run { t with rest }) }

/-- The timer runs down and flushes the menu. -/
def ringTimer (w : World) (timer : TimerId) : World := w.tellMenu (·.timerDue timer)

/-- A job takes its turn. -/
def takeTurn (w : World) : Job → World
  | .run t => runScript t w t.rest
  | .answered ticket stop =>
    let t := ticket.task
    let w := w.noteAnswer t ticket.item stop
    if stop && !t.stubborn then w.endScript t else runScript t w t.rest
  | .timerSet timer =>
    match w.menu with
    | none => w
    | some m =>
      if m.config.batchDelay = 0 then w.ringTimer timer
      else { w with schedule := w.schedule.sleep m.config.batchDelay (.timerDue timer) }
  | .timerDue timer => w.ringTimer timer
  | .lookAfter id =>
    if w.isCompleted id then w.tellMenu (·.forget id)
    else { w with feeds := w.feeds.modify id fun f => { f with awaited := true } }

/-- Takes turns, and lets time pass up to `limit` when nobody is ready. -/
def runUntil (limit : Nat) : (turns : Nat) → World → World
  | 0, w => w
  | turns + 1, w =>
    match w.schedule.next? with
    | some (job, schedule) => runUntil limit turns ({ w with schedule }.takeTurn job)
    | none =>
      match w.schedule.wake? limit with
      | some schedule => runUntil limit turns { w with schedule }
      | none => w

/-- The weight of what an extractor holds back and of the job that waits for its end. -/
def feedWeight (f : Feed) : Nat :=
  (match f.extractor.state with
    | .paused (some (_, ticket)) => ticket.task.weight
    | _ => 0) + 1

/-- How many turns can be taken. -/
def weight (w : World) : Nat :=
  (w.schedule.jobs.map (·.weight) ++ w.feeds.map feedWeight).foldl (· + ·) 0

/-- Takes all turns that can be taken up to a time, beginning a round. -/
def workUntil (w : World) (limit : Nat) : World :=
  runUntil limit (2 * w.weight + 1) { w with schedule := w.schedule.newRound }

/-- Takes all turns that can be taken without time passing. -/
def settle (w : World) : World := w.workUntil w.schedule.now

/-- Lets time pass. -/
def sleep (w : World) (duration : Nat) : World :=
  let time := w.schedule.now + duration
  let w := w.workUntil time
  { w with schedule := w.schedule.passTo time }

/-! ## Making things -/

/-- Adds an extractor that was not started. -/
def addFeed (w : World) (source : GeneratorDef) (consumer : Consumer) : World × GeneratorId :=
  ({ w with feeds := w.feeds ++ [⟨.new, source, consumer, false⟩] }, w.feeds.length)

/-- A world with an extractor whose phase is watched. -/
def ofExtractor (inRuntime : Bool) (source : GeneratorDef) : World :=
  let (w, id) := (empty inRuntime).addFeed source .collect
  { w with feeds := w.feeds.modify id fun f =>
      { f with extractor :=
          { f.extractor with phase := (f.extractor.phase.subscribe .phase).1 } } }

/-- Adds a completion and gives its number. -/
def addCompletion (w : World) (c : Completion) : World × Nat :=
  ({ w with completions := w.completions ++ [c] }, w.completions.length)

/-- Feeds the menu from a generator. -/
def addGenerator (w : World) (source : GeneratorDef) (batch : Bool) :
    Except StartError GeneratorId × World :=
  let (w, id) := w.addFeed source (.addToMenu batch)
  let w := w.tellMenu (·.track id)
  match w.start id with
  | .ok w => (.ok id, w.add (.lookAfter id))
  | .error e => (.error e, w.tellMenu (·.forget id))

/-- A world with a menu, filled from a source if there is one. -/
def ofMenu (inRuntime : Bool) (config : MenuConfig)
    (source : Option (MenuSource String GeneratorDef)) : Except StartError World :=
  let w := { empty inRuntime with menu := some (.new config) }
  match source with
  | none => .ok w
  | some (.items items) => .ok (w.tellMenu (·.addItems inRuntime false items))
  | some (.generator g) =>
    match w.addGenerator g true with
    | (.ok _, w) => .ok w
    | (.error e, _) => .error e

/-- Lets watchers read the items, the selection, the generators and the cursor. -/
def watchMenu (w : World) : World :=
  (((w.tellMenu (·.watchEntries .entries)).tellMenu (·.watchSelected .selection)).tellMenu
    (·.watchGenerators .generators)).tellMenu (·.watchCursor .cursor)

/-- Whether a future is ready; a ready one may make the menu forget its generator. -/
def poll (w : World) (number : Nat) : Bool × World :=
  match w.completions[number]? with
  | none => (false, w)
  | some c =>
    if w.isCompleted c.generator then
      (true, if c.forgets then w.tellMenu (·.forget c.generator) else w)
    else (false, w)

/-- The generators that feed the menu. -/
def generators (w : World) : List GeneratorId := (w.menu.map (·.generators.value)).getD []

/-- Stops all generators that feed the menu. -/
def stopGenerators (w : World) : World := w.generators.foldl stop w

/-- Keeps the generators that feed the menu for later use. -/
def keepGenerators (w : World) : World := { w with kept := w.generators }

/-- Drops the menu, which stops its generators. -/
def dropMenu (w : World) : World := w.generators.foldl stop { w with menu := none }

end World

end Palette
