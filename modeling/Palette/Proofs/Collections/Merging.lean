import Mathlib.Data.List.Induction
import Mathlib.Data.List.Perm.Basic
import Palette.Proofs.Collections.Order

/-!
# Batches merged into sorted lists

Without a limit, a batch is sorted and merged into the list, and every item stays. What is taken out
of such a list could have been taken out before: a part of the merged list that is picked by a
predicate is merged of the parts of the list and of the batch (`Sorted.filter_merged`), and an item
that only the list has can be erased there (`Sorted.eraseP_merged`). Both hold because ties keep
their order, in the sorted batch as in the merged list.
-/

namespace Palette.SortedItems

variable {α : Type _} {precedes : α → α → Bool} {items batch : List α}

/-- The items with a batch merged into them. -/
def merged (precedes : α → α → Bool) (items batch : List α) : List α :=
  items.merge (stableSort precedes batch) fun a b => !before precedes b a

@[simp] theorem merged_nil (precedes : α → α → Bool) (items : List α) :
    merged precedes items [] = items :=
  List.merge_right items

theorem fst_addAll_none (precedes : α → α → Bool) (batch items : List α) :
    (addAll precedes batch none items).1 = merged precedes items batch := by
  simp only [addAll, Option.getD_none]
  split
  · next hempty =>
    have hnone : stableSort precedes batch = [] :=
      List.isEmpty_iff.mp (Bool.and_eq_true_iff.mp hempty).1
    rw [merged, hnone, List.merge_right]
  · rw [mergeUpTo_eq_merge, ← List.length_merge (fun a b => !before precedes b a), List.take_length]
    rfl

theorem merged_perm (precedes : α → α → Bool) (items batch : List α) :
    (merged precedes items batch).Perm (items ++ batch) :=
  (List.merge_perm_append _).trans (List.Perm.append_left items (stableSort_perm precedes batch))

theorem fst_add_none_perm (precedes : α → α → Bool) (item : α) (items : List α) :
    (add precedes item none items).1.Perm (item :: items) :=
  (List.Perm.refl items).insertIdx_of_le (partitionPoint_le_length _ items) (Nat.zero_le _) item

/-- If there is at most one, erasing the first is dropping all. -/
theorem eraseP_eq_filter {p : α → Bool} (h : items.countP p ≤ 1) :
    items.eraseP p = items.filter (!p ·) := by
  induction items with
  | nil => rfl
  | cons a rest ih =>
    cases ha : p a with
    | true =>
      have hrest : rest.countP p = 0 := by
        rw [List.countP_cons_of_pos ha] at h
        omega
      have hkept : rest.filter (!p ·) = rest :=
        List.filter_eq_self.mpr fun b hb => by simpa using List.countP_eq_zero.mp hrest b hb
      rw [List.eraseP_cons_of_pos ha, List.filter_cons_of_neg (by simp [ha]), hkept]
    | false =>
      rw [List.countP_cons_of_neg (by simp [ha])] at h
      rw [List.eraseP_cons_of_neg (by simp [ha]), List.filter_cons_of_pos (by simp [ha]), ih h]

/-! ## Heads -/

/-- An item that no new one precedes is merged first. -/
theorem merge_cons_left {le : α → α → Bool} {o : α} {old new : List α}
    (h : ∀ n ∈ new, le o n = true) : (o :: old).merge new le = o :: old.merge new le := by
  cases new with
  | nil => rw [List.merge_right, List.merge_right]
  | cons n new => exact List.cons_merge_cons_pos le _ _ (h n List.mem_cons_self)

/-- A new item that precedes all old ones is merged first. -/
theorem merge_cons_right {le : α → α → Bool} {n : α} {old new : List α}
    (h : ∀ o ∈ old, le o n = false) : old.merge (n :: new) le = n :: old.merge new le := by
  cases old with
  | nil => rw [List.nil_merge, List.nil_merge]
  | cons o old =>
    exact List.cons_merge_cons_neg le _ _ (Bool.eq_false_iff.mp (h o List.mem_cons_self))

theorem insertLast_of_forall {item : α} {sorted : List α}
    (h : ∀ a ∈ sorted, before precedes item a = false) :
    insertLast precedes item sorted = item :: sorted := by
  cases sorted with
  | nil => rfl
  | cons last rest =>
    rw [insertLast, if_neg (Bool.eq_false_iff.mp (h last List.mem_cons_self))]

section

variable [IsStrictWeakOrder α fun a b => before precedes a b = true]

theorem Sorted.not_before_of_head {o n : α} {new : List α} (h : Sorted precedes (n :: new))
    (hno : before precedes n o = false) : ∀ a ∈ n :: new, before precedes a o = false := by
  intro a ha
  rcases List.mem_cons.mp ha with rfl | ha
  · exact hno
  · exact not_before_trans hno ((List.pairwise_cons.mp h).1 a ha)

theorem Sorted.before_of_head {o n : α} {old : List α} (h : Sorted precedes (o :: old))
    (hno : before precedes n o = true) : ∀ a ∈ o :: old, before precedes n a = true := by
  intro a ha
  rcases List.mem_cons.mp ha with rfl | ha
  · exact hno
  · by_contra hna
    have hon := not_before_trans ((List.pairwise_cons.mp h).1 a ha) (Bool.eq_false_iff.mpr hna)
    simp [hno] at hon

/-! ## Parts -/

theorem filter_insertLast (keep : α → Bool) (item : α) {sorted : List α}
    (h : Sorted precedes sorted.reverse) :
    (insertLast precedes item sorted).filter keep =
      if keep item then insertLast precedes item (sorted.filter keep) else sorted.filter keep := by
  rw [Sorted, List.pairwise_reverse] at h
  induction sorted with
  | nil => cases hitem : keep item <;> simp [insertLast, hitem]
  | cons last rest ih =>
    obtain ⟨hlast, hrest⟩ := List.pairwise_cons.mp h
    by_cases hbefore : before precedes item last = true
    · rw [insertLast, if_pos hbefore]
      simp only [List.filter_cons, ih hrest]
      cases keep last <;> cases keep item <;> simp [insertLast, hbefore]
    · have hall : ∀ a ∈ last :: rest, before precedes item a = false := by
        intro a ha
        rcases List.mem_cons.mp ha with rfl | ha
        · exact Bool.eq_false_iff.mpr hbefore
        · exact not_before_trans (hlast a ha) (Bool.eq_false_iff.mpr hbefore)
      have hkept : ∀ a ∈ (last :: rest).filter keep, before precedes item a = false :=
        fun a ha => hall a (List.mem_filter.mp ha).1
      rw [insertLast_of_forall hall, insertLast_of_forall hkept, List.filter_cons]

omit [IsStrictWeakOrder α fun a b => before precedes a b = true] in
theorem stableSort_concat (items : List α) (item : α) :
    stableSort precedes (items ++ [item]) =
      (insertLast precedes item (stableSort precedes items).reverse).reverse := by
  simp [stableSort]

/-- Sorting keeps the order of what is picked. -/
theorem filter_stableSort (keep : α → Bool) (items : List α) :
    (stableSort precedes items).filter keep = stableSort precedes (items.filter keep) := by
  induction items using List.reverseRecOn with
  | nil => rfl
  | append_singleton items item ih =>
    have hsorted : Sorted precedes (stableSort precedes items).reverse.reverse := by
      rw [List.reverse_reverse]
      exact sorted_stableSort items
    rw [stableSort_concat, List.filter_reverse, filter_insertLast keep item hsorted,
      List.filter_reverse, ih, List.filter_append]
    cases hitem : keep item with
    | true => simp [stableSort_concat, hitem]
    | false => simp [hitem]

theorem filter_merge (keep : α → Bool) {old new : List α} (hold : Sorted precedes old)
    (hnew : Sorted precedes new) :
    (old.merge new fun a b => !before precedes b a).filter keep =
      (old.filter keep).merge (new.filter keep) fun a b => !before precedes b a := by
  fun_induction old.merge new fun a b => !before precedes b a with
  | case1 new => simp
  | case2 old hold => simp
  | case3 o old n new h ih =>
    obtain ⟨ho, holdRest⟩ := List.pairwise_cons.mp hold
    rw [List.filter_cons, List.filter_cons (x := o), ih holdRest hnew]
    split
    · -- no new item precedes the first old one
      have hno := hnew.not_before_of_head (by simpa using h)
      exact (merge_cons_left fun a ha => by simp [hno a (List.mem_filter.mp ha).1]).symm
    · rfl
  | case4 o old n new h ih =>
    obtain ⟨hn, hnewRest⟩ := List.pairwise_cons.mp hnew
    rw [List.filter_cons, List.filter_cons (x := n), ih hold hnewRest]
    split
    · have hno := hold.before_of_head (by simpa using h)
      exact (merge_cons_right fun a ha => by simp [hno a (List.mem_filter.mp ha).1]).symm
    · rfl

theorem sorted_merged (h : Sorted precedes items) (batch : List α) :
    Sorted precedes (merged precedes items batch) := by
  rw [← fst_addAll_none]
  exact h.addAll batch none

theorem Sorted.filter_merged (h : Sorted precedes items) (keep : α → Bool) (batch : List α) :
    (merged precedes items batch).filter keep =
      merged precedes (items.filter keep) (batch.filter keep) := by
  rw [merged, filter_merge keep h (sorted_stableSort batch), filter_stableSort]
  rfl

theorem Sorted.eraseP_merged (h : Sorted precedes items) {leaves : α → Bool}
    (hbatch : ∀ b ∈ batch, leaves b = false) :
    (merged precedes items batch).eraseP leaves = merged precedes (items.eraseP leaves) batch := by
  unfold merged
  have hnew : ∀ b ∈ stableSort precedes batch, leaves b = false :=
    fun b hb => hbatch b ((stableSort_perm precedes batch).mem_iff.mp hb)
  generalize stableSort precedes batch = new at *
  fun_induction items.merge new fun a b => !before precedes b a with
  | case1 new =>
    rw [List.eraseP_nil, List.nil_merge]
    exact List.eraseP_of_forall_not fun b hb => Bool.eq_false_iff.mp (hnew b hb)
  | case2 old hold => rw [List.merge_right]
  | case3 o old n new hfirst ih =>
    rw [List.eraseP_cons, List.eraseP_cons]
    cases leaves o with
    | true => rfl
    | false =>
      simp only [cond_false]
      rw [ih (List.pairwise_cons.mp h).2 hnew]
      exact (List.cons_merge_cons_pos (fun a b => !before precedes b a) _ _ hfirst).symm
  | case4 o old n new hfirst ih =>
    rw [List.eraseP_cons_of_neg (Bool.eq_false_iff.mp (hnew n List.mem_cons_self)),
      ih h fun b hb => hnew b (List.mem_cons_of_mem n hb)]
    have hno := h.before_of_head (by simpa using hfirst)
    exact (merge_cons_right fun a ha => by simp [hno a (List.mem_of_mem_eraseP ha)]).symm

end

end Palette.SortedItems
