import Palette.Proofs.Collections.Finding
import Palette.Proofs.Collections.Merging

/-!
# Batches removed from sorted lists

The targets are sorted once, and then one walk along the items decides about all of them. On the way
it drops the targets that strictly precede the current item, and of those that are left it looks
only at the ones that do not strictly follow the item.

Equality is finer than the order: what equals an item is tied with it, but not the other way round.
So a target that is dropped is missed by no later item, because it strictly precedes that one too
(`Sorted.any_dropWhile`), and a target that is not looked at equals nothing that is tied with the
item (`Sorted.any_takeWhile`). The walk marks each item as if the item were compared with every
target (`Sorted.doomed_eq`), and the removal is a filter.

Main statement: `SortedList.removeAll_filters`.
-/

namespace Palette

namespace SortedItems

variable {α : Type _} [BEq α] {precedes : α → α → Bool} {items targets : List α}

/-! ## Targets that make no difference -/

/-- Nothing equals an item that it strictly precedes or follows. -/
theorem beq_eq_false_of_before
    (hties : ∀ a b : α, (a == b) = true → before precedes a b = false ∧ before precedes b a = false)
    {a b : α} (h : before precedes a b = true ∨ before precedes b a = true) : (a == b) = false := by
  refine Bool.eq_false_iff.mpr fun hequal => ?_
  obtain ⟨hab, hba⟩ := hties a b hequal
  rcases h with h | h
  · simp [hab] at h
  · simp [hba] at h

section

variable [IsStrictWeakOrder α fun a b => before precedes a b = true]
  (hties : ∀ a b : α, (a == b) = true → before precedes a b = false ∧ before precedes b a = false)
include hties

/-- The targets dropped in front of an item equal neither it nor a later one. -/
theorem Sorted.any_dropWhile {item : α} {rest : List α} (h : Sorted precedes (item :: rest))
    (targets : List α) {a : α} (ha : a ∈ item :: rest) :
    (targets.dropWhile fun key => before precedes key item).any (· == a)
      = targets.any (· == a) := by
  have hdropped : (targets.takeWhile fun key => before precedes key item).any (· == a) = false := by
    refine List.any_eq_false.mpr fun key hkey => Bool.eq_false_iff.mp ?_
    have hprecedes : before precedes key item = true :=
      List.mem_takeWhile_imp (p := fun key => before precedes key item) hkey
    exact beq_eq_false_of_before hties (.inl (h.before_of_head hprecedes a ha))
  calc (targets.dropWhile fun key => before precedes key item).any (· == a)
      = (targets.takeWhile (fun key => before precedes key item) ++
          targets.dropWhile fun key => before precedes key item).any (· == a) := by
        rw [List.any_append, hdropped, Bool.false_or]
    _ = targets.any (· == a) := by rw [List.takeWhile_append_dropWhile]

/-- Sorted targets from the first one on that strictly follows an item do not equal it. -/
theorem Sorted.any_takeWhile (h : Sorted precedes targets) (item : α) :
    (targets.takeWhile fun key => !before precedes item key).any (· == item)
      = targets.any (· == item) := by
  have hbehind : (targets.dropWhile fun key => !before precedes item key).any (· == item)
      = false := by
    refine List.any_eq_false.mpr fun key hkey => Bool.eq_false_iff.mp ?_
    exact beq_eq_false_of_before hties (.inr (h.before_of_mem_dropWhile item key hkey))
  calc (targets.takeWhile fun key => !before precedes item key).any (· == item)
      = (targets.takeWhile (fun key => !before precedes item key) ++
          targets.dropWhile fun key => !before precedes item key).any (· == item) := by
        rw [List.any_append, hbehind, Bool.or_false]
    _ = targets.any (· == item) := by rw [List.takeWhile_append_dropWhile]

/-! ## The walk -/

/-- **The walk along the items marks those that equal a target.** -/
theorem Sorted.doomed_eq (h : Sorted precedes items) (htargets : Sorted precedes targets) :
    doomed precedes targets items = items.map fun a => targets.any (· == a) := by
  induction items generalizing targets with
  | nil => rfl
  | cons item rest ih =>
    have hleft : Sorted precedes (targets.dropWhile fun key => before precedes key item) :=
      htargets.sublist (List.dropWhile_sublist _)
    have hlater : doomed precedes (targets.dropWhile fun key => before precedes key item) rest
        = rest.map fun a => targets.any (· == a) := by
      rw [ih (List.pairwise_cons.mp h).2 hleft]
      refine List.map_congr_left fun a ha => ?_
      rw [h.any_dropWhile hties targets (List.mem_cons_of_mem item ha)]
    -- looking at the ties among the targets that are left is looking at all targets
    rw [doomed, hleft.any_takeWhile hties item, h.any_dropWhile hties targets List.mem_cons_self,
      hlater, List.map_cons]

omit [BEq α] [IsStrictWeakOrder α fun a b => before precedes a b = true] hties in
theorem unmarked_map (p : α → Bool) (items : List α) :
    unmarked (items.map p) items = items.filter (!p ·) := by
  induction items with
  | nil => rfl
  | cons item rest ih => cases hitem : p item <;> simp [unmarked, hitem, ih]

/-- The items that equal no target are kept, and the flag tells whether there are others. -/
theorem Sorted.removeAll_eq (h : Sorted precedes items) (targets : List α) :
    removeAll precedes targets items =
      (items.filter (fun a => !targets.any (· == a)),
        items.any fun a => targets.any (· == a)) := by
  have hsame : ∀ a, (stableSort precedes targets).any (· == a) = targets.any (· == a) :=
    fun a => (stableSort_perm precedes targets).any_eq
  have hmarks : doomed precedes (stableSort precedes targets) items
      = items.map fun a => targets.any (· == a) := by
    simp only [h.doomed_eq hties (sorted_stableSort targets), hsame]
  have hmarked : (items.map fun a => targets.any (· == a)).contains true
      = items.any fun a => targets.any (· == a) := by
    rw [List.contains_eq_any_beq, List.any_map]
    simp [Function.comp_def]
  simp only [removeAll, hmarks, hmarked, unmarked_map]
  cases hany : items.any (fun a => targets.any (· == a)) with
  | true => rfl
  | false =>
    refine congrArg (·, false) (List.filter_eq_self.mpr fun a ha => ?_).symm
    simpa using List.any_eq_false.mp hany a ha

end

end SortedItems

open SortedItems

namespace SortedList

variable {α L : Type} [BEq α] {precedes : α → α → Bool}
  [IsStrictWeakOrder α fun a b => before precedes a b = true]

/-- **Removing a batch is a filter.** Whatever happened to a list before, the items that equal no
target are left in their order, and the result tells whether there were others. -/
theorem removeAll_filters (items : List α) (steps : List (ListStep α L)) (targets : List α)
    (hties : ∀ a b : α, (a == b) = true →
      before precedes a b = false ∧ before precedes b a = false) :
    let l : SortedList α L := reached precedes items steps
    let w := l.removeAll targets
    w.state.toList = l.toList.filter (fun a => !targets.any (· == a)) ∧
      w.result = l.toList.any fun a => targets.any (· == a) := by
  intro l w
  have hprecedes : l.precedes = precedes := precedes_reached items steps
  have hsorted : Sorted precedes l.toList := sorted_reached items steps
  have hw : w = l.change fun _ => (l.toList.filter (fun a => !targets.any (· == a)),
      l.toList.any fun a => targets.any (· == a)) := by
    simp only [w, removeAll, hprecedes]
    exact change_congr l (hsorted.removeAll_eq hties targets)
  rw [hw]
  exact ⟨toList_change l _, result_change l _⟩

end SortedList

/-- Targets out of order, given twice or not there, and an item that stays between its ties. -/
theorem SortedList.removeAll_filters_ties :
    let l : SortedList (Nat × Nat) Unit :=
      reached firstAtMost [(2, 0), (1, 1)] [.call (.addAll [(2, 2), (3, 3), (2, 4), (2, 2)] none)]
    let targets := [(3, 3), (2, 2), (0, 0), (2, 0), (2, 2), (3, 9)]
    let w := l.removeAll targets
    l.toList = [(1, 1), (2, 0), (2, 2), (2, 4), (2, 2), (3, 3)] ∧
      w.state.toList = l.toList.filter (fun a => !targets.any (· == a)) ∧
      w.result = l.toList.any (fun a => targets.any (· == a)) ∧
      w.state.toList = [(1, 1), (2, 4)] ∧ w.result = true := by
  have := isStrictWeakOrder_firstAtMost
  intro l targets w
  obtain ⟨hstate, hresult⟩ := @removeAll_filters _ Unit _ firstAtMost _ [(2, 0), (1, 1)]
    [.call (.addAll [(2, 2), (3, 3), (2, 4), (2, 2)] none)] targets
    fun _ _ h => before_eq_false_of_beq h
  exact ⟨by decide +kernel, hstate, hresult, by decide +kernel, by decide +kernel⟩

end Palette
