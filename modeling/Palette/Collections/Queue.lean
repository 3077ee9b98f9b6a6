/-!
# Queues

First in, first out. The items are kept from the oldest to the newest.
-/

namespace Palette

/-- Items waiting in the order in which they came. -/
structure Queue (α : Type _) where
  /-- The items from the oldest to the newest. -/
  toList : List α
  deriving DecidableEq, Repr

namespace Queue

variable {α : Type _}

/-- The queue without items. -/
def empty : Queue α := ⟨[]⟩

instance : Inhabited (Queue α) := ⟨empty⟩

/-- The queue of the given items, the first of them the oldest. -/
def ofList (items : List α) : Queue α := ⟨items⟩

/-- The queue with `item` behind all others. -/
def push (q : Queue α) (item : α) : Queue α := ⟨q.toList ++ [item]⟩

/-- The oldest item with the queue of the others. -/
def pop? (q : Queue α) : Option (α × Queue α) :=
  match q.toList with
  | [] => none
  | item :: rest => some (item, ⟨rest⟩)

/-- The oldest item. -/
def peek? (q : Queue α) : Option α := q.toList.head?

/-- Number of items. -/
def size (q : Queue α) : Nat := q.toList.length

/-- Whether there are no items. -/
def isEmpty (q : Queue α) : Bool := q.toList.isEmpty

@[simp] theorem toList_empty : (empty : Queue α).toList = [] := rfl

@[simp] theorem toList_push (q : Queue α) (item : α) : (q.push item).toList = q.toList ++ [item] :=
  rfl

theorem pop?_eq_some_iff {q r : Queue α} {item : α} :
    q.pop? = some (item, r) ↔ q.toList = item :: r.toList := by
  unfold pop?
  cases r
  split <;> simp_all

end Queue

end Palette
