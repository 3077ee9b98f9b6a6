import Mathlib.Data.List.TakeWhile
import Mathlib.Order.Defs.Unbundled
import Palette.Collections.SortedList

/-!
# Order in sorted lists

A list is sorted when no later item strictly precedes an earlier one. Ties are not told apart, so a
predicate that holds for ties and one that does not are the same here: both are read through
`before` alone. What is asked of them is that strict precedence is a strict weak order, and what is
used of that is `not_before_trans`: not being preceded is passed on.

## The operations

An operation that only takes items out leaves a part of the list, and a part of a sorted list is
sorted. Adding an item cuts the list where the items end that it does not precede, which halving
finds because such items come first (`Sorted.exists_place`). Adding a batch merges two sorted
lists, and it is the library's merge that is cut at the limit (`mergeUpTo_eq_merge`).

Main statements: `Sorted.add`, `Sorted.addAll`.
-/

namespace Palette.SortedItems

variable {α : Type _} {precedes : α → α → Bool}

/-- No later item strictly precedes an earlier one. -/
def Sorted (precedes : α → α → Bool) (items : List α) : Prop :=
  items.Pairwise fun a b => before precedes b a = false

theorem before_asymm {a b : α} (h : before precedes a b = true) : before precedes b a = false := by
  simp only [before, Bool.and_eq_true, Bool.not_eq_true'] at h
  simp [before, h.2]

/-! ## Parts of sorted lists -/

section

variable {items : List α}

theorem Sorted.sublist (h : Sorted precedes items) {kept : List α} (hkept : kept.Sublist items) :
    Sorted precedes kept :=
  List.Pairwise.sublist hkept h

theorem remove_sublist [BEq α] (precedes : α → α → Bool) (item : α) (items : List α) :
    (remove precedes item items).1.Sublist items := by
  unfold remove
  split
  · exact List.eraseIdx_sublist items _
  · exact .refl items

theorem unmarked_sublist (marks : List Bool) (items : List α) :
    (unmarked marks items).Sublist items := by
  fun_induction unmarked marks items with
  | case1 => exact .refl _
  | case2 => exact .refl _
  | case3 marks item rest ih => exact ih.cons item
  | case4 marks item rest ih => exact ih.cons_cons item

theorem removeAll_sublist [BEq α] (precedes : α → α → Bool) (targets items : List α) :
    (removeAll precedes targets items).1.Sublist items := by
  unfold removeAll
  dsimp only
  split
  · exact unmarked_sublist _ items
  · exact .refl items

theorem removeIndex_sublist (index : Nat) (items : List α) :
    (removeIndex index items).1.Sublist items := by
  unfold removeIndex
  split
  · exact .refl items
  · exact List.eraseIdx_sublist items index

theorem withoutIndices_sublist (indices : List Nat) (index : Nat) (items : List α) :
    (withoutIndices indices index items).Sublist items := by
  fun_induction withoutIndices indices index items with
  | case1 => exact .refl _
  | case2 => exact .refl _
  | case3 index later item rest ih => exact ih.cons item
  | case4 index next later item rest hnext ih => exact ih.cons_cons item

theorem removeIndices_sublist (indices : List Nat) (items : List α) :
    (removeIndices indices items).1.Sublist items := by
  unfold removeIndices
  dsimp only
  split
  · exact .refl items
  · exact withoutIndices_sublist _ 0 items

theorem clear_sublist (items : List α) : (clear items).1.Sublist items := by
  unfold clear
  split
  · exact .refl items
  · exact List.nil_sublist items

end

/-! ## Limits -/

theorem length_add_le (precedes : α → α → Bool) (item : α) (limit : Nat) (items : List α) :
    (add precedes item (some limit) items).1.length ≤ limit := by
  unfold add
  dsimp only
  split
  · next h => exact h.2
  · exact List.length_take_le limit _

/-- Merging is the library's merge, cut at the limit. -/
theorem mergeUpTo_eq_merge (precedes : α → α → Bool) (limit : Nat) (old new : List α) :
    (mergeUpTo precedes limit old new).1 =
      (old.merge new fun a b => !before precedes b a).take limit := by
  fun_induction mergeUpTo precedes limit old new with
  | case1 => rfl
  | case2 => simp
  | case3 limit n new ih => rw [ih, List.nil_merge, List.nil_merge, List.take_succ_cons]
  | case4 limit o old rest ih => rw [ih, List.merge_right, List.merge_right, List.take_succ_cons]
  | case5 limit o old n new h ih => simp [h, ih]
  | case6 limit o old n new h rest ih => simp [h, rest, ih]

theorem length_addAll_le (precedes : α → α → Bool) (batch : List α) (limit : Nat) (items : List α) :
    (addAll precedes batch (some limit) items).1.length ≤ limit := by
  simp only [addAll, Option.all_some, Option.getD_some]
  split
  · next h => exact of_decide_eq_true (Bool.and_eq_true_iff.mp h).2
  · rw [mergeUpTo_eq_merge]
    exact List.length_take_le limit _

/-! ## Places -/

/-- Where a predicate holds for what does not follow an item that satisfies it, it fails from its
first failure on. -/
theorem Sorted.eq_false_of_mem_dropWhile {items : List α} (h : Sorted precedes items)
    {p : α → Bool} (hp : ∀ a b, before precedes b a = false → p b = true → p a = true) :
    ∀ x ∈ items.dropWhile p, p x = false := by
  induction items with
  | nil => simp
  | cons a rest ih =>
    obtain ⟨hfirst, hrest⟩ := List.pairwise_cons.mp h
    by_cases ha : p a = true
    · rw [List.dropWhile_cons_of_pos ha]
      exact ih hrest
    · rw [List.dropWhile_cons_of_neg ha]
      intro x hx
      rcases List.mem_cons.mp hx with rfl | hx
      · exact Bool.eq_false_iff.mpr ha
      · exact Bool.eq_false_iff.mpr fun hpx => ha (hp a x (hfirst x hx) hpx)

/-- Such a predicate cuts the list in two, and halving finds the cut. -/
theorem Sorted.exists_cut {items : List α} (h : Sorted precedes items) {p : α → Bool}
    (hp : ∀ a b, before precedes b a = false → p b = true → p a = true) :
    ∃ front back, items = front ++ back ∧ (∀ a ∈ front, p a = true) ∧ (∀ b ∈ back, p b = false) ∧
      partitionPoint p items = front.length := by
  have hfront : ∀ a ∈ items.takeWhile p, p a = true := fun _ ha => List.mem_takeWhile_imp ha
  have hback := h.eq_false_of_mem_dropWhile hp
  have hpoint := partitionPoint_eq hfront hback
  rw [List.takeWhile_append_dropWhile] at hpoint
  exact ⟨_, _, List.takeWhile_append_dropWhile.symm, hfront, hback, hpoint⟩

theorem insertIdx_length_append (front back : List α) (item : α) :
    (front ++ back).insertIdx front.length item = front ++ item :: back := by
  induction front with
  | nil => exact List.insertIdx_zero
  | cons a front ih => simp [ih]

/-! ## Strict weak orders -/

section

variable [IsStrictWeakOrder α fun a b => before precedes a b = true]

/-- If neither `b` precedes `a` nor `c` precedes `b`, then `c` does not precede `a`. Otherwise `b`
would be tied with both. -/
theorem not_before_trans {a b c : α} (hab : before precedes b a = false)
    (hbc : before precedes c b = false) : before precedes c a = false := by
  refine Bool.eq_false_iff.mpr fun hca => ?_
  have hbelow : ¬ before precedes a b = true := by
    intro hba
    have hcb : before precedes c b = true :=
      trans_of (fun a b => before precedes a b = true) hca hba
    simp [hcb] at hbc
  have habove : ¬ before precedes b c = true := by
    intro hcb
    have hba : before precedes b a = true :=
      trans_of (fun a b => before precedes a b = true) hcb hca
    simp [hba] at hab
  -- nothing is left but ties of `a` and `b` and of `b` and `c`
  have htied : ¬ before precedes a c = true ∧ ¬ before precedes c a = true :=
    @IsStrictWeakOrder.incomp_trans α (fun a b => before precedes a b = true) _ a b c
      ⟨hbelow, Bool.eq_false_iff.mp hab⟩ ⟨habove, Bool.eq_false_iff.mp hbc⟩
  exact htied.2 hca

/-- Not being preceded by is transitive, and total, as the library's sorting asks for. -/
theorem notBefore_trans (a b c : α) (hab : (!before precedes b a) = true)
    (hbc : (!before precedes c b) = true) : (!before precedes c a) = true := by
  rw [Bool.not_eq_true'] at hab hbc ⊢
  exact not_before_trans hab hbc

omit [IsStrictWeakOrder α fun a b => before precedes a b = true] in
theorem notBefore_total (a b : α) : (!before precedes b a || !before precedes a b) = true := by
  cases h : before precedes a b with
  | false => simp
  | true => simp [before_asymm h]

/-! ## Sorting and merging -/

theorem sorted_insertLast {sorted : List α} (h : Sorted precedes sorted.reverse) (item : α) :
    Sorted precedes (insertLast precedes item sorted).reverse := by
  rw [Sorted, List.pairwise_reverse] at h ⊢
  -- from last to first, nobody precedes who comes after
  induction sorted with
  | nil => exact List.pairwise_singleton _ _
  | cons last rest ih =>
    obtain ⟨hlast, hrest⟩ := List.pairwise_cons.mp h
    unfold insertLast
    split
    · next hitem =>
      refine List.pairwise_cons.mpr ⟨fun a ha => ?_, ih hrest⟩
      rcases List.mem_cons.mp ((insertLast_perm precedes item rest).mem_iff.mp ha) with rfl | ha
      · exact before_asymm hitem
      · exact hlast a ha
    · next hitem =>
      have hitem : before precedes item last = false := Bool.eq_false_iff.mpr hitem
      refine List.pairwise_cons.mpr ⟨fun a ha => ?_, h⟩
      rcases List.mem_cons.mp ha with rfl | ha
      · exact hitem
      · exact not_before_trans (hlast a ha) hitem

theorem sorted_stableSort (items : List α) : Sorted precedes (stableSort precedes items) := by
  unfold stableSort
  exact List.foldlRecOn (motive := fun sorted : List α => Sorted precedes sorted.reverse) items _
    List.Pairwise.nil fun _ h item _ => sorted_insertLast h item

theorem Sorted.mergeUpTo {old new : List α} (hold : Sorted precedes old)
    (hnew : Sorted precedes new) (limit : Nat) :
    Sorted precedes (mergeUpTo precedes limit old new).1 := by
  rw [mergeUpTo_eq_merge]
  refine Sorted.sublist ?_ (List.take_sublist limit _)
  have hmerge := List.pairwise_merge notBefore_trans notBefore_total old new (by simpa [Sorted] using hold)
    (by simpa [Sorted] using hnew)
  simpa [Sorted] using hmerge

/-- **A merged batch leaves a sorted list.** -/
theorem Sorted.addAll {items : List α} (h : Sorted precedes items) (batch : List α)
    (limit : Option Nat) : Sorted precedes (addAll precedes batch limit items).1 := by
  simp only [SortedItems.addAll]
  split
  · exact h
  · exact h.mergeUpTo (sorted_stableSort batch) _

/-! ## Adding -/

/-- If an item does not precede another, neither does it precede what stands before that one. -/
theorem notBefore_of_notBefore (item a b : α) (hab : before precedes b a = false)
    (hb : (!before precedes item b) = true) : (!before precedes item a) = true := by
  rw [Bool.not_eq_true'] at hb ⊢
  exact not_before_trans hab hb

/-- From the first one on that an item precedes, it precedes all. -/
theorem Sorted.before_of_mem_dropWhile {items : List α} (h : Sorted precedes items) (item : α) :
    ∀ b ∈ items.dropWhile fun existing => !before precedes item existing,
      before precedes item b = true := by
  intro b hb
  simpa using h.eq_false_of_mem_dropWhile (notBefore_of_notBefore item) b hb

/-- An item is put between those that it does not precede and those that it does. -/
theorem Sorted.exists_place {items : List α} (h : Sorted precedes items) (item : α) :
    ∃ front back, items = front ++ back ∧ (∀ a ∈ front, before precedes item a = false) ∧
      (∀ b ∈ back, before precedes item b = true) ∧
        partitionPoint (fun existing => !before precedes item existing) items = front.length := by
  obtain ⟨front, back, hitems, hfront, hback, hpoint⟩ := h.exists_cut (notBefore_of_notBefore item)
  exact ⟨front, back, hitems, fun a ha => by simpa using hfront a ha,
    fun b hb => by simpa using hback b hb, hpoint⟩

theorem Sorted.insertIdx {items : List α} (h : Sorted precedes items) (item : α) :
    Sorted precedes (items.insertIdx
      (partitionPoint (fun existing => !before precedes item existing) items) item) := by
  obtain ⟨front, back, rfl, hfront, hback, hpoint⟩ := h.exists_place item
  rw [hpoint, insertIdx_length_append]
  obtain ⟨hfrontSorted, hbackSorted, hacross⟩ := List.pairwise_append.mp h
  have hbehind : Sorted precedes (item :: back) :=
    List.pairwise_cons.mpr ⟨fun b hb => before_asymm (hback b hb), hbackSorted⟩
  refine List.pairwise_append.mpr ⟨hfrontSorted, hbehind, fun a ha b hb => ?_⟩
  rcases List.mem_cons.mp hb with rfl | hb
  · exact hfront a ha
  · exact hacross a ha b hb

/-- **An added item leaves a sorted list.** -/
theorem Sorted.add {items : List α} (h : Sorted precedes items) (item : α) (limit : Option Nat) :
    Sorted precedes (add precedes item limit items).1 := by
  unfold SortedItems.add
  cases limit with
  | none => exact h.insertIdx item
  | some limit =>
    dsimp only
    split
    · exact h
    · exact (h.insertIdx item).sublist (List.take_sublist limit _)

end

end Palette.SortedItems
