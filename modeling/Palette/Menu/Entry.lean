import Palette.Decimal.Text
import Palette.Text.Record

/-!
# Menu entries

An entry is an item with a priority, and entries are sorted by priority. The arithmetic of
priorities is that of any numbers that can be added, halved and compared; menus use
floating-point ones.
-/

namespace Palette

/-- Numbers that can serve as priorities. -/
class Priority (π : Type) where
  atMost : π → π → Bool
  same : π → π → Bool
  add : π → π → π
  subtract : π → π → π
  negate : π → π
  halve : π → π
  /-- The priority of the first item. -/
  initial : π
  /-- The distance between neighbours at either end. -/
  step : π

instance : Priority Float where
  atMost x y := x ≤ y
  same x y := x == y
  add x y := x + y
  subtract x y := x - y
  negate x := -x
  halve x := x / 2.0
  initial := 1e5
  step := 1e5

/-- In which direction entries are sorted by priority. -/
inductive SortOrder where
  | highestFirst
  | lowestFirst
  deriving DecidableEq, Repr

namespace SortOrder

variable {π : Type} [Priority π]

/-- The name of the order. -/
def name : SortOrder → String
  | highestFirst => "HighestFirst"
  | lowestFirst => "LowestFirst"

/-- Whether priority `a` sorts at or before priority `b`. -/
def precedes : SortOrder → (a b : π) → Bool
  | highestFirst, a, b => Priority.atMost b a
  | lowestFirst, a, b => Priority.atMost a b

/-- What to add to a priority to get the next one. -/
def later : SortOrder → π
  | highestFirst => Priority.negate Priority.step
  | lowestFirst => Priority.step

/-- The one of two priorities that sorts last, the second one if they are tied. -/
def last (order : SortOrder) (a b : π) : π := if order.precedes a b then b else a

/-- The priority behind all those given. -/
def behind (order : SortOrder) : List π → π
  | [] => Priority.initial
  | a :: rest => Priority.add (rest.foldl order.last a) order.later

/-- The priority between two neighbours, either of which may be missing. -/
def between (order : SortOrder) : (before after : Option π) → π
  | some before, some after => Priority.halve (Priority.add before after)
  | some before, none => Priority.add before order.later
  | none, some after => Priority.subtract after order.later
  | none, none => Priority.initial

end SortOrder

/-- An item with its priority. -/
structure MenuEntry (ι π : Type) where
  priority : π
  item : ι

namespace MenuEntry

variable {ι π : Type}

/-- Entries are equal when both the item and the priority are. -/
instance [BEq ι] [Priority π] : BEq (MenuEntry ι π) :=
  ⟨fun a b => Priority.same a.priority b.priority && a.item == b.item⟩

/-- Whether the entry is one of the given item. -/
def holds [BEq ι] (e : MenuEntry ι π) (item : ι) : Bool := e.item == item

/-- The entry described by its fields. -/
def describe (item : ι → String) (priority : π → String) (e : MenuEntry ι π) : String :=
  Text.record "PrioritizedItem"
    [Text.field "priority" (priority e.priority), Text.field "item" (item e.item)]

end MenuEntry

end Palette
