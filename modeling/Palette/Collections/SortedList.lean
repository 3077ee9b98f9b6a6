import Palette.Collections.Halving
import Palette.Observable.Basic
import Palette.Text.Record

/-!
# Sorted lists

A list that stays sorted under a predicate `precedes a b`, read as "`a` sorts at or before `b`".
Two items are tied when neither strictly precedes the other. Ties keep the order of arrival: a
single item lands after its ties, a batch keeps its own order and lands after the ties that were
there before it.

The operations come in two layers. The functions of `SortedItems` work on a plain list and return
the list that takes its place, with a flag that says whether to tell of it. `SortedList` publishes
its items through an observable: what is returned is published in any case, and the listeners are
called for the flag alone.
-/

namespace Palette

namespace SortedItems

variable {α : Type _}

/-- Strict precedence: at or before, and not tied. -/
def before (precedes : α → α → Bool) (a b : α) : Bool := precedes a b && !precedes b a

/-! ## Sorting and merging -/

/-- Inserts into a list sorted from last to first, in front of what does not strictly follow. -/
def insertLast (precedes : α → α → Bool) (item : α) : List α → List α
  | [] => [item]
  | last :: rest =>
    if before precedes item last then last :: insertLast precedes item rest
    else item :: last :: rest

/-- Sorts, keeping the order of ties. -/
def stableSort (precedes : α → α → Bool) (items : List α) : List α :=
  (items.foldl (fun sorted item => insertLast precedes item sorted) []).reverse

/--
Merges two sorted lists up to a length of `limit`, old items before tied new ones. The flag is set
if a new item gets in, and at the limit if an old one is left over.
-/
def mergeUpTo (precedes : α → α → Bool) : Nat → List α → List α → List α × Bool
  | 0, old, _ => ([], !old.isEmpty)
  | _ + 1, [], [] => ([], false)
  | limit + 1, [], n :: new =>
    (n :: (mergeUpTo precedes limit [] new).1, true)
  | limit + 1, o :: old, [] =>
    let rest := mergeUpTo precedes limit old []
    (o :: rest.1, rest.2)
  | limit + 1, o :: old, n :: new =>
    if before precedes n o then
      (n :: (mergeUpTo precedes limit (o :: old) new).1, true)
    else
      let rest := mergeUpTo precedes limit old (n :: new)
      (o :: rest.1, rest.2)

/-! ## Changes -/

/-- Adds one item after its ties, then keeps at most `limit` items. -/
def add (precedes : α → α → Bool) (item : α) (limit : Option Nat) (items : List α) :
    List α × Bool :=
  let index := partitionPoint (fun existing => !before precedes item existing) items
  match limit with
  | none => (items.insertIdx index item, true)
  | some limit =>
    if limit ≤ index ∧ items.length ≤ limit then (items, false)
    else ((items.insertIdx index item).take limit, true)

/--
Merges a batch into the items, then keeps at most `limit` of them, the earliest ones. Nothing is
merged if there is nothing to add and nothing to leave out.
-/
def addAll (precedes : α → α → Bool) (batch : List α) (limit : Option Nat) (items : List α) :
    List α × Bool :=
  let incoming := stableSort precedes batch
  if incoming.isEmpty && limit.all (items.length ≤ ·) then (items, false)
  else mergeUpTo precedes (limit.getD (items.length + incoming.length)) items incoming

/--
The index of the first item equal to `item`: halving finds the first tie, and the ties are
looked through from there.
-/
def position [BEq α] (precedes : α → α → Bool) (item : α) (items : List α) : Option Nat :=
  let start := partitionPoint (fun existing => before precedes existing item) items
  let ties := (items.drop start).takeWhile (fun existing => !before precedes item existing)
  (ties.findIdx? (· == item)).map (start + ·)

/-- Removes the first item equal to `item`. -/
def remove [BEq α] (precedes : α → α → Bool) (item : α) (items : List α) : List α × Bool :=
  match position precedes item items with
  | some index => (items.eraseIdx index, true)
  | none => (items, false)

/--
Tells of each item whether it equals one of the sorted `targets`. Targets that strictly precede an
item precede all later items too and are dropped on the way.
-/
def doomed [BEq α] (precedes : α → α → Bool) : List α → List α → List Bool
  | _, [] => []
  | targets, item :: rest =>
    let targets := targets.dropWhile (fun key => before precedes key item)
    let ties := targets.takeWhile (fun key => !before precedes item key)
    ties.any (· == item) :: doomed precedes targets rest

/-- The items that have no mark. -/
def unmarked : List Bool → List α → List α
  | _, [] => []
  | [], items => items
  | true :: marks, _ :: rest => unmarked marks rest
  | false :: marks, item :: rest => item :: unmarked marks rest

/-- Removes every item equal to one of `targets`. -/
def removeAll [BEq α] (precedes : α → α → Bool) (targets items : List α) : List α × Bool :=
  let marks := doomed precedes (stableSort precedes targets) items
  if marks.contains true then (unmarked marks items, true) else (items, false)

/-- Removes the item at `index`. -/
def removeIndex (index : Nat) (items : List α) : List α × Bool :=
  if items.length ≤ index then (items, false) else (items.eraseIdx index, true)

/--
Leaves out the items at some ascending indices, counting from `index`. Each item is compared with
the first index that is left.
-/
def withoutIndices : List Nat → Nat → List α → List α
  | _, _, [] => []
  | [], _, items => items
  | next :: later, index, item :: rest =>
    if next = index then withoutIndices later (index + 1) rest
    else item :: withoutIndices (next :: later) (index + 1) rest

/-- Removes the items at all of `indices`, in whatever order these are and however often. -/
def removeIndices (indices : List Nat) (items : List α) : List α × Bool :=
  let ascending := indices.mergeSort.eraseReps
  let inBounds := partitionPoint (fun index => decide (index < items.length)) ascending
  if inBounds = 0 then (items, false)
  else (withoutIndices (ascending.take inBounds) 0 items, true)

/-- Removes everything. -/
def clear (items : List α) : List α × Bool :=
  if items.isEmpty then (items, false) else ([], true)

/--
The first item that `compare` finds equal to a key, with its index. `compare` tells where an item
sits relative to the key and has to agree with the order of the items.
-/
def search (compare : α → Ordering) (items : List α) : Option (Nat × α) :=
  let index := partitionPoint (fun item => compare item == .lt) items
  (items[index]?.filter (fun item => compare item == .eq)).map ((index, ·))

/-- Inserting puts exactly one item more into the list. -/
theorem insertLast_perm (precedes : α → α → Bool) (item : α) (items : List α) :
    (insertLast precedes item items).Perm (item :: items) := by
  induction items with
  | nil => exact .refl _
  | cons last rest ih =>
    unfold insertLast
    split
    · exact (List.Perm.cons last ih).trans (List.Perm.swap item last rest)
    · exact .refl _

/-- Sorting keeps every item. -/
theorem stableSort_perm (precedes : α → α → Bool) (items : List α) :
    (stableSort precedes items).Perm items := by
  have key : ∀ (items sorted : List α),
      (items.foldl (fun sorted item => insertLast precedes item sorted) sorted).Perm
        (items ++ sorted) := by
    intro items
    induction items with
    | nil => intro sorted; exact .refl _
    | cons x xs ih =>
      intro sorted
      rw [List.foldl_cons, List.cons_append]
      refine (ih _).trans ?_
      refine (List.Perm.append_left xs (insertLast_perm precedes x sorted)).trans ?_
      exact List.perm_middle
  have h := key items []
  rw [List.append_nil] at h
  exact (List.reverse_perm _).trans h

end SortedItems

/-- A published list that stays sorted under `precedes`. -/
structure SortedList (α L : Type _) where
  precedes : α → α → Bool
  items : Observable (List α) L

namespace SortedList

variable {α L : Type _}

/-- The empty list. -/
def empty (precedes : α → α → Bool) : SortedList α L := ⟨precedes, .of []⟩

/-- The items in order. -/
def toList (l : SortedList α L) : List α := l.items.value

/-- Number of items. -/
def size (l : SortedList α L) : Nat := l.toList.length

/-- Makes a change, and calls the listeners if it says so. -/
def change (l : SortedList α L) (f : List α → List α × Bool) : Written (SortedList α L) L Bool :=
  let written := l.items.updateWhen f
  { state := { l with items := written.state }, result := written.result,
    called := written.called }

/-- Adds an item after its ties, keeping at most `limit` items. -/
def add (l : SortedList α L) (item : α) (limit : Option Nat) : Written (SortedList α L) L Bool :=
  l.change (SortedItems.add l.precedes item limit)

/-- Merges a batch, keeping the earliest `limit` items. -/
def addAll (l : SortedList α L) (batch : List α) (limit : Option Nat) :
    Written (SortedList α L) L Bool :=
  l.change (SortedItems.addAll l.precedes batch limit)

/-- The list of the given items. -/
def ofList (precedes : α → α → Bool) (items : List α) : SortedList α L :=
  ((empty precedes).addAll items none).state

/-- Removes the first item equal to `item`; the result tells whether there was one. -/
def remove [BEq α] (l : SortedList α L) (item : α) : Written (SortedList α L) L Bool :=
  l.change (SortedItems.remove l.precedes item)

/-- Removes every item equal to one of `targets`; the result tells whether there was any. -/
def removeAll [BEq α] (l : SortedList α L) (targets : List α) : Written (SortedList α L) L Bool :=
  l.change (SortedItems.removeAll l.precedes targets)

/-- Removes the item at `index`, if there is one. -/
def removeIndex (l : SortedList α L) (index : Nat) : Written (SortedList α L) L Bool :=
  l.change (SortedItems.removeIndex index)

/-- Removes the items at all of `indices` that are in bounds. -/
def removeIndices (l : SortedList α L) (indices : List Nat) : Written (SortedList α L) L Bool :=
  l.change (SortedItems.removeIndices indices)

/-- Removes everything. -/
def clear (l : SortedList α L) : Written (SortedList α L) L Bool := l.change SortedItems.clear

/-- The index of the first item equal to `item`. -/
def find? [BEq α] (l : SortedList α L) (item : α) : Option Nat :=
  SortedItems.position l.precedes item l.toList

/-- The first item that compares equal to a key, with its index. -/
def search (l : SortedList α L) (compare : α → Ordering) : Option (Nat × α) :=
  SortedItems.search compare l.toList

/-- The list described by its items. -/
def describe (l : SortedList α L) (item : α → String) : String :=
  Text.openRecord "SortedList" [Text.field "items" (Text.bracketed (l.toList.map item))]

@[simp] theorem toList_change (l : SortedList α L) (f : List α → List α × Bool) :
    (l.change f).state.toList = (f l.toList).1 :=
  l.items.value_updateWhen f

@[simp] theorem precedes_change (l : SortedList α L) (f : List α → List α × Bool) :
    (l.change f).state.precedes = l.precedes := rfl

@[simp] theorem result_change (l : SortedList α L) (f : List α → List α × Bool) :
    (l.change f).result = (f l.toList).2 :=
  l.items.result_updateWhen f

/-- What is done depends on what comes of the items that are there. -/
theorem change_congr (l : SortedList α L) {f g : List α → List α × Bool}
    (h : f l.toList = g l.toList) : l.change f = l.change g := by
  have hvalue : f l.items.value = g l.items.value := h
  simp only [change, Observable.updateWhen, hvalue]

/-- Each listener is called once if the change is to be told, and nobody otherwise. -/
theorem called_change (l : SortedList α L) (f : List α → List α × Bool) :
    (l.change f).called = if (l.change f).result then l.items.listeners.map (·.2) else [] :=
  l.items.called_updateWhen f

end SortedList

end Palette
