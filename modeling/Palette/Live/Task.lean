import Palette.Extractor.Basic
import Palette.Menu.Basic

/-!
# Generators and their tasks

A generator is given by a script: what it does until it ends. A task runs a script for an
extractor. The task that an extractor launches is the root of the extraction, which ends with it;
a task may spawn others that offer items to the same extractor but end on their own.

A task that is told to stop skips the rest of its script, unless it is stubborn.

The weight of a script bounds how often the tasks and timers that come of it can take turns.
-/

namespace Palette

/-- What a generator does. -/
inductive GeneratorStep where
  /-- Offers an item and waits for the answer. -/
  | offer (item : String)
  | sleep (duration : Nat)
  /-- Spawns a task with a script of its own. -/
  | spawn (script : List GeneratorStep)
  /-- Dies at once. -/
  | crash
  /-- Writes what it offers items to into the log. -/
  | describe
  /-- Lets others take their turns. -/
  | yield

mutual

/-- How many turns can come of a step: one to make it, and for an item those of a timer. -/
def GeneratorStep.weight : GeneratorStep → Nat
  | .offer _ => 3
  | .spawn script => GeneratorStep.scriptWeight script + 1
  | _ => 1

/-- How many turns can come of a script: those of its steps and one to end. -/
def GeneratorStep.scriptWeight : List GeneratorStep → Nat
  | [] => 1
  | step :: rest => step.weight + scriptWeight rest

end

/-- What makes a generator. -/
structure GeneratorDef where
  name : String
  script : List GeneratorStep
  /-- Whether the generator goes on when it is told to stop. -/
  stubborn : Bool

/-- A task that runs the script of a generator. -/
structure Task where
  /-- The extractor that items are offered to. -/
  generator : GeneratorId
  name : String
  stubborn : Bool
  /-- Whether the extraction ends with this task. -/
  root : Bool
  /-- What is left to do. -/
  rest : List GeneratorStep

namespace Task

/-- The task that an extractor launches. -/
def ofDef (generator : GeneratorId) (d : GeneratorDef) : Task :=
  { generator, name := d.name, stubborn := d.stubborn, root := true, rest := d.script }

/-- A task spawned by another one. -/
def child (t : Task) (script : List GeneratorStep) : Task :=
  { t with name := t.name ++ "+", root := false, rest := script }

/-- How many turns can come of the task. -/
def weight (t : Task) : Nat := GeneratorStep.scriptWeight t.rest

end Task

/-- A task that waits for the answer to an item. -/
structure Ticket where
  task : Task
  item : String

/-- Something that takes a turn. -/
inductive Job where
  /-- A task goes on with its script. -/
  | run (task : Task)
  /-- A task learns the answer to its item. -/
  | answered (ticket : Ticket) (stop : Bool)
  /-- A timer starts to run. -/
  | timerSet (timer : TimerId)
  /-- A timer has run down. -/
  | timerDue (timer : TimerId)
  /-- Looks whether an extraction has ended, so that the menu can forget its generator. -/
  | lookAfter (generator : GeneratorId)

/-- How many turns can come of the job. -/
def Job.weight : Job → Nat
  | run task => task.weight
  | answered ticket _ => ticket.task.weight
  | timerSet _ => 2
  | timerDue _ => 1
  | lookAfter _ => 1

/-- The ones to call when something changes. -/
inductive Watcher where
  | phase
  | entries
  | selection
  | generators
  | cursor
  deriving DecidableEq, Repr

end Palette
