import Palette.Proofs.Collections.Calls
import Palette.Proofs.Collections.Truncation

/-!
# Batches added to sorted lists

A batch is sorted on its own and then merged in, up to the limit. What it leaves is said without
either step: sort the items that are there and the new ones behind them, all at once and without
changing the order of ties, and keep the front. The merge may stop at the limit with items left over
on both sides, and an empty batch may still cut the list.

Adding the items of a batch one by one leaves the same, since each of them is sorted behind those
before it, and cut off at the limit, early or late (`toList_addEach`). Only for an empty batch there
is a difference: nothing is then added, and so nothing is cut.

Main statements: `SortedList.toList_addAll`, `SortedList.addAll_eq_addEach`.
-/

namespace Palette

open SortedItems

namespace SortedList

variable {α L : Type} [BEq α] {precedes : α → α → Bool}
  [IsStrictWeakOrder α fun a b => before precedes a b = true]

/-- **Adding a batch is a stable sort, cut at the limit.** Whatever happened to a list before, it
then holds the first items of the stable sort of its items followed by the batch. -/
theorem toList_addAll (items : List α) (steps : List (ListStep α L)) (batch : List α)
    (limit : Option Nat) :
    let l : SortedList α L := reached precedes items steps
    (l.addAll batch limit).state.toList =
      cut limit ((l.toList ++ batch).mergeSort fun a b => !before precedes b a) := by
  intro l
  have hprecedes : l.precedes = precedes := precedes_reached items steps
  have hsorted : Sorted precedes l.toList := sorted_reached items steps
  calc (l.addAll batch limit).state.toList
      = (SortedItems.addAll precedes batch limit l.toList).1 := by
        rw [addAll, toList_change, hprecedes]
    _ = cut limit (stableSort precedes (l.toList ++ batch)) := hsorted.fst_addAll limit batch
    _ = cut limit ((l.toList ++ batch).mergeSort fun a b => !before precedes b a) := by
        rw [stableSort_eq_mergeSort]

end SortedList

/-- Ties on both sides, and a limit that leaves old items over as well as new ones. -/
theorem SortedList.toList_addAll_ties :
    let l : SortedList (Nat × Nat) Unit :=
      reached firstAtMost [(2, 0), (1, 1)] [.call (.add (2, 2) none), .call (.add (4, 3) none)]
    let batch := [(3, 4), (2, 5), (1, 6)]
    (l.addAll batch (some 5)).state.toList =
        cut (some 5) ((l.toList ++ batch).mergeSort fun a b => !before firstAtMost b a) ∧
      l.toList = [(1, 1), (2, 0), (2, 2), (4, 3)] ∧
      (l.addAll batch (some 5)).state.toList = [(1, 1), (1, 6), (2, 0), (2, 2), (2, 5)] := by
  have := isStrictWeakOrder_firstAtMost
  exact ⟨toList_addAll _ _ _ _, by decide +kernel, by decide +kernel⟩

namespace SortedList

/-! ## One by one -/

section

variable {α L : Type}

/-- Adds the items of a batch one by one, from first to last. -/
def addEach (l : SortedList α L) (batch : List α) (limit : Option Nat) : SortedList α L :=
  batch.foldl (fun l item => (l.add item limit).state) l

theorem addEach_concat (l : SortedList α L) (batch : List α) (item : α) (limit : Option Nat) :
    l.addEach (batch ++ [item]) limit = ((l.addEach batch limit).add item limit).state := by
  rw [addEach, List.foldl_append]
  rfl

theorem precedes_addEach (l : SortedList α L) (batch : List α) (limit : Option Nat) :
    (l.addEach batch limit).precedes = l.precedes := by
  induction batch using List.reverseRecOn with
  | nil => rfl
  | append_singleton batch item ih => rw [addEach_concat, add, precedes_change, ih]

variable {precedes : α → α → Bool} [IsStrictWeakOrder α fun a b => before precedes a b = true]

theorem toList_add {l : SortedList α L} (hprecedes : l.precedes = precedes)
    (h : Sorted precedes l.toList) (item : α) (limit : Option Nat) :
    (l.add item limit).state.toList = cut limit (stableSort precedes (l.toList ++ [item])) := by
  rw [add, toList_change, hprecedes]
  exact h.fst_add limit item

/-- **Items added one by one leave what is first of all items**, sorted and cut. -/
theorem toList_addEach {l : SortedList α L} (hprecedes : l.precedes = precedes)
    (h : Sorted precedes l.toList) {batch : List α} (hsome : batch ≠ []) (limit : Option Nat) :
    (l.addEach batch limit).toList = cut limit (stableSort precedes (l.toList ++ batch)) := by
  induction batch using List.reverseRecOn with
  | nil => exact absurd rfl hsome
  | append_singleton batch item ih =>
    rw [addEach_concat]
    by_cases hnil : batch = []
    · subst hnil
      exact toList_add hprecedes h item limit
    · have hbefore := ih hnil
      have hsorted : Sorted precedes (l.addEach batch limit).toList := by
        rw [hbefore]
        exact (sorted_stableSort _).cut limit
      have hsame : (l.addEach batch limit).precedes = precedes :=
        (precedes_addEach l batch limit).trans hprecedes
      -- what the earlier items had cut off, the last one would have cut off as well
      calc ((l.addEach batch limit).add item limit).state.toList
          = cut limit (stableSort precedes ((l.addEach batch limit).toList ++ [item])) :=
            toList_add hsame hsorted item limit
        _ = cut limit (stableSort precedes (l.toList ++ batch ++ [item])) := by
            rw [hbefore, cut_stableSort_append]
        _ = cut limit (stableSort precedes (l.toList ++ (batch ++ [item]))) := by
            rw [List.append_assoc]

variable [BEq α]

/-- **Adding a batch is adding its items one by one.** Whatever happened to a list before, a batch
that is not empty leaves the same items in the same order, whether it is merged at once and cut, or
each of its items is put in its place and the list cut after each. -/
theorem addAll_eq_addEach (items : List α) (steps : List (ListStep α L)) {batch : List α}
    (hsome : batch ≠ []) (limit : Option Nat) :
    let l : SortedList α L := reached precedes items steps
    (l.addAll batch limit).state.toList = (l.addEach batch limit).toList := by
  intro l
  have hprecedes : l.precedes = precedes := precedes_reached items steps
  have hsorted : Sorted precedes l.toList := sorted_reached items steps
  rw [toList_addEach hprecedes hsorted hsome, addAll, toList_change, hprecedes]
  exact hsorted.fst_addAll limit batch

end

end SortedList

/-- A limit below the length, ties on both sides, and an item that gets in and is cut off again. -/
theorem SortedList.addAll_eq_addEach_ties :
    let l : SortedList (Nat × Nat) Unit :=
      reached firstAtMost [(2, 0), (1, 1)] [.call (.addAll [(3, 2), (3, 3)] none)]
    let batch := [(2, 4), (1, 5), (3, 6), (1, 7)]
    batch ≠ [] ∧ (l.addAll batch (some 3)).state.toList = (l.addEach batch (some 3)).toList ∧
      l.toList = [(1, 1), (2, 0), (3, 2), (3, 3)] ∧
      (l.addEach [(2, 4)] (some 3)).toList = [(1, 1), (2, 0), (2, 4)] ∧
      (l.addEach batch (some 3)).toList = [(1, 1), (1, 5), (1, 7)] := by
  have := isStrictWeakOrder_firstAtMost
  exact ⟨by decide, addAll_eq_addEach _ _ (by decide) _, by decide +kernel, by decide +kernel,
    by decide +kernel⟩

/-- An empty batch cuts a list that is too long; without an item to add, nothing is cut. -/
example :
    let l : SortedList Nat Unit := .ofList (· ≤ ·) [1, 2]
    (l.addAll [] (some 1)).state.toList = [1] ∧ (l.addEach [] (some 1)).toList = [1, 2] := by
  decide +kernel

end Palette
