import Mathlib.Data.List.Induction
import Palette.Proofs.Collections.Order

/-!
# Calls to a sorted list

A list is made from some items and then called, in whatever order, while listeners come and go. What
each call makes of the items that are there (`ListCall.change`) is published, and a flag says whether
the listeners are told. So a property of the items holds after all steps if every call keeps it, and
who listens makes no difference.

What is asked of `precedes` is that strict precedence is a strict weak order. Nothing is asked of
equality, by which items to remove are found: whichever of them go, the others stay in order.

Main statement: `SortedList.reached_sorted`.
-/

namespace Palette

variable {α L : Type}

open SortedItems

/-- A call that may change the items. -/
inductive ListCall (α : Type) where
  | add (item : α) (limit : Option Nat)
  | addAll (batch : List α) (limit : Option Nat)
  | remove (item : α)
  | removeAll (targets : List α)
  | removeIndex (index : Nat)
  | removeIndices (indices : List Nat)
  | clear

/-- What may happen to a list. -/
inductive ListStep (α L : Type) where
  | call (call : ListCall α)
  | subscribe (listener : L)
  | unsubscribe (number : Nat)

namespace ListCall

/-- How many items a call lets the list keep, where it says so. -/
def limit? : ListCall α → Option Nat
  | .add _ limit => limit
  | .addAll _ limit => limit
  | _ => none

/-- What a call makes of the items, and whether it is to be told. -/
def change [BEq α] (precedes : α → α → Bool) : ListCall α → List α → List α × Bool
  | .add item limit => SortedItems.add precedes item limit
  | .addAll batch limit => SortedItems.addAll precedes batch limit
  | .remove item => SortedItems.remove precedes item
  | .removeAll targets => SortedItems.removeAll precedes targets
  | .removeIndex index => SortedItems.removeIndex index
  | .removeIndices indices => SortedItems.removeIndices indices
  | .clear => SortedItems.clear

end ListCall

namespace SortedList

variable [BEq α]

/-- Makes a call. -/
def perform (l : SortedList α L) : ListCall α → Written (SortedList α L) L Bool
  | .add item limit => l.add item limit
  | .addAll batch limit => l.addAll batch limit
  | .remove item => l.remove item
  | .removeAll targets => l.removeAll targets
  | .removeIndex index => l.removeIndex index
  | .removeIndices indices => l.removeIndices indices
  | .clear => l.clear

/-- What comes of a step. -/
def step (l : SortedList α L) : ListStep α L → SortedList α L
  | .call call => (l.perform call).state
  | .subscribe listener => { l with items := (l.items.subscribe listener).1 }
  | .unsubscribe number => { l with items := l.items.unsubscribe number }

/-- What comes of some steps from the list of the given items. -/
def reached (precedes : α → α → Bool) (items : List α) (steps : List (ListStep α L)) :
    SortedList α L :=
  steps.foldl step (ofList precedes items)

theorem perform_eq_change (l : SortedList α L) (call : ListCall α) :
    l.perform call = l.change (call.change l.precedes) := by
  cases call <;> rfl

theorem precedes_step (l : SortedList α L) (s : ListStep α L) : (l.step s).precedes = l.precedes := by
  cases s with
  | call call => rw [step, perform_eq_change, precedes_change]
  | subscribe listener => rfl
  | unsubscribe number => rfl

theorem reached_concat (precedes : α → α → Bool) (items : List α) (steps : List (ListStep α L))
    (s : ListStep α L) :
    reached precedes items (steps ++ [s]) = (reached precedes items steps).step s := by
  simp [reached]

theorem precedes_reached {precedes : α → α → Bool} (items : List α) (steps : List (ListStep α L)) :
    (reached precedes items steps).precedes = precedes := by
  induction steps using List.reverseRecOn with
  | nil => rfl
  | append_singleton steps s ih => rw [reached_concat, precedes_step, ih]

end SortedList

namespace ListCall

variable [BEq α] {precedes : α → α → Bool} {items : List α}

theorem length_change_le (call : ListCall α) {limit : Nat} (h : call.limit? = some limit) :
    (call.change precedes items).1.length ≤ limit := by
  cases call with
  | add item l =>
    obtain rfl : l = some limit := h
    exact length_add_le precedes item limit items
  | addAll batch l =>
    obtain rfl : l = some limit := h
    exact length_addAll_le precedes batch limit items
  | _ => nomatch h

/-- Every call keeps the items sorted. -/
theorem sorted_change [IsStrictWeakOrder α fun a b => before precedes a b = true]
    (call : ListCall α) (h : Sorted precedes items) :
    Sorted precedes (call.change precedes items).1 := by
  cases call with
  | add item limit => exact h.add item limit
  | addAll batch limit => exact h.addAll batch limit
  | remove item => exact h.sublist (remove_sublist precedes item items)
  | removeAll targets => exact h.sublist (removeAll_sublist precedes targets items)
  | removeIndex index => exact h.sublist (removeIndex_sublist index items)
  | removeIndices indices => exact h.sublist (removeIndices_sublist indices items)
  | clear => exact h.sublist (clear_sublist items)

end ListCall

namespace SortedList

variable {precedes : α → α → Bool} [IsStrictWeakOrder α fun a b => before precedes a b = true]

theorem sorted_ofList (items : List α) :
    Sorted precedes (ofList precedes items : SortedList α L).toList := by
  have hempty : Sorted precedes ([] : List α) := List.Pairwise.nil
  rw [ofList, addAll, toList_change]
  exact hempty.addAll items none

variable [BEq α]

theorem sorted_step {l : SortedList α L} (hprecedes : l.precedes = precedes)
    (h : Sorted precedes l.toList) (s : ListStep α L) : Sorted precedes (l.step s).toList := by
  cases s with
  | call call =>
    rw [step, perform_eq_change, hprecedes, toList_change]
    exact call.sorted_change h
  | subscribe listener => exact h
  | unsubscribe number => exact h

/-- Whatever happens to a list leaves it sorted. -/
theorem sorted_reached (items : List α) (steps : List (ListStep α L)) :
    Sorted precedes (reached precedes items steps).toList := by
  induction steps using List.reverseRecOn with
  | nil => exact sorted_ofList items
  | append_singleton steps s ih =>
    rw [reached_concat]
    exact sorted_step (precedes_reached items steps) ih s

/-- **The list is always sorted**, and a call with a limit leaves no more items than that. -/
theorem reached_sorted (items : List α) (steps : List (ListStep α L)) :
    Sorted precedes (reached precedes items steps).toList ∧
      ∀ call limit, call.limit? = some limit →
        (reached precedes items (steps ++ [.call call])).size ≤ limit := by
  refine ⟨sorted_reached items steps, fun call limit hlimit => ?_⟩
  rw [reached_concat, step, perform_eq_change, size, toList_change]
  exact call.length_change_le hlimit

end SortedList

/-- By first components alone. -/
def firstAtMost (a b : Nat × Nat) : Bool := a.1 ≤ b.1

theorem isStrictWeakOrder_firstAtMost :
    IsStrictWeakOrder (Nat × Nat) fun a b => before firstAtMost a b = true where
  irrefl a h := by simp [before] at h
  trans a b c hab hbc := by
    simp only [before, firstAtMost, Bool.and_eq_true, decide_eq_true_eq, Bool.not_eq_true',
      decide_eq_false_iff_not] at hab hbc ⊢
    omega
  incomp_trans a b c hab hbc := by
    simp only [before, firstAtMost, Bool.and_eq_true, decide_eq_true_eq, Bool.not_eq_true',
      decide_eq_false_iff_not] at hab hbc ⊢
    omega

/-- Ties in both orders of arrival, and limits that cut. -/
theorem SortedList.reached_sorted_ties :
    let steps : List (ListStep (Nat × Nat) Unit) :=
      [.call (.add (2, 1) none), .subscribe (), .call (.addAll [(2, 2), (1, 3)] none),
        .call (.remove (2, 0))]
    let call : ListCall (Nat × Nat) := .add (1, 4) (some 2)
    Sorted firstAtMost (reached firstAtMost [(3, 0), (2, 0)] steps).toList ∧
      (reached firstAtMost [(3, 0), (2, 0)] steps).toList = [(1, 3), (2, 1), (2, 2), (3, 0)] ∧
      (reached firstAtMost [(3, 0), (2, 0)] (steps ++ [.call call])).size ≤ 2 := by
  have := isStrictWeakOrder_firstAtMost
  intro steps call
  obtain ⟨hsorted, hlimit⟩ := @reached_sorted _ _ firstAtMost _ _ [(3, 0), (2, 0)] steps
  exact ⟨hsorted, by decide +kernel, hlimit call 2 rfl⟩

end Palette
