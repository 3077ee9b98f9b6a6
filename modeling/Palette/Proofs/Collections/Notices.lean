import Palette.Proofs.Collections.Finding
import Palette.Proofs.Collections.Indices

/-!
# Notices of sorted lists

What a call makes of the items is published whatever its flag says, and the flag decides whether the
listeners are told. So notices are exact if the flag is (`Exact`): it is set just when the items are
not the same as before.

A removal that sets the flag leaves fewer items. The flag of a merge is put together along the way:
it is set where a new item gets in, and at the limit if old ones are left over. The first new item
takes the place of one that it strictly precedes, so the items differ there; and as long as none has
got in, the old ones are where they were (`exact_mergeUpTo`). An added item has to get in as well,
and it does so in front of an item that it strictly precedes: this one is not the same, however many
are then cut off.

Main statement: `SortedList.notices_exact`.
-/

namespace Palette

namespace SortedItems

variable {α : Type _} {precedes : α → α → Bool} {items : List α}

@[simp] theorem before_self (a : α) : before precedes a a = false := by
  simp [before]

/-- The flag tells whether the items are other than before. -/
def Exact (items : List α) (made : List α × Bool) : Prop := made.2 = true ↔ made.1 ≠ items

theorem Exact.same (items : List α) : Exact items (items, false) := by
  simp [Exact]

theorem Exact.of_ne {made : List α} (h : made ≠ items) : Exact items (made, true) :=
  iff_of_true rfl h

theorem Exact.cons {made : List α × Bool} (h : Exact items made) (first : α) :
    Exact (first :: items) (first :: made.1, made.2) :=
  h.trans (not_congr (List.cons_inj_right first)).symm

theorem ne_of_length_lt {made : List α} (h : made.length < items.length) : made ≠ items :=
  fun heq => absurd (congrArg List.length heq) h.ne

/-! ## Putting in -/

/-- **The flag of a merge is exact.** -/
theorem exact_mergeUpTo (precedes : α → α → Bool) (limit : Nat) (old new : List α) :
    Exact old (mergeUpTo precedes limit old new) := by
  fun_induction mergeUpTo precedes limit old new with
  | case1 old => cases old <;> simp [Exact]
  | case2 => exact .same []
  | case3 => exact .of_ne (List.cons_ne_nil _ _)
  | case4 limit o old rest ih => exact ih.cons o
  | case5 limit o old n new hbefore ih =>
    -- the new item takes the place of one that it strictly precedes
    refine .of_ne fun heq => ?_
    obtain rfl := (List.cons.inj heq).1
    simp at hbefore
  | case6 limit o old n new hbefore rest ih => exact ih.cons o

theorem exact_addAll (precedes : α → α → Bool) (batch : List α) (limit : Option Nat)
    (items : List α) : Exact items (addAll precedes batch limit items) := by
  unfold addAll
  dsimp only
  split
  · exact .same items
  · exact exact_mergeUpTo precedes _ items _

theorem Sorted.exact_add [IsStrictWeakOrder α fun a b => before precedes a b = true]
    (hsorted : Sorted precedes items) (item : α) (limit : Option Nat) :
    Exact items (SortedItems.add precedes item limit items) := by
  obtain ⟨front, back, rfl, -, hback, hpoint⟩ := hsorted.exists_place item
  simp only [SortedItems.add, hpoint, insertIdx_length_append]
  cases limit with
  | none =>
    refine .of_ne fun heq => ?_
    simpa using congrArg List.length heq
  | some limit =>
    dsimp only
    split
    · exact .same _
    · next hroom =>
      refine .of_ne fun heq => ?_
      by_cases hplace : front.length < limit
      · -- the item stands where one stood that it strictly precedes
        have hitem := congrArg (·[front.length]?) heq
        simp only [List.getElem?_take_of_lt hplace, List.getElem?_append_right le_rfl, Nat.sub_self,
          List.getElem?_cons_zero] at hitem
        have hself := hback item (List.mem_of_getElem? hitem.symm)
        simp at hself
      · have hlength := congrArg List.length heq
        rw [List.length_take, List.length_append, List.length_append] at hlength
        rw [List.length_append] at hroom
        omega

/-! ## Taking out -/

theorem exact_remove [BEq α] (precedes : α → α → Bool) (item : α) (items : List α) :
    Exact items (remove precedes item items) := by
  rcases exists_of_remove precedes item items with ⟨front, found, back, rfl, -, hremove⟩ | hremove
  · rw [hremove]
    exact .of_ne (ne_of_length_lt (by simp))
  · rw [hremove]
    exact .same items

theorem length_doomed [BEq α] (precedes : α → α → Bool) (targets items : List α) :
    (doomed precedes targets items).length = items.length := by
  induction items generalizing targets with
  | nil => rfl
  | cons item rest ih => rw [doomed, List.length_cons, ih, List.length_cons]

/-- As many items go as there are marks. -/
theorem length_unmarked {marks : List Bool} (h : marks.length = items.length) :
    (unmarked marks items).length + marks.count true = items.length := by
  induction items generalizing marks with
  | nil =>
    obtain rfl := List.length_eq_zero_iff.mp h
    rfl
  | cons item rest ih =>
    cases marks with
    | nil => cases h
    | cons mark marks =>
      have hrest := ih (Nat.succ.inj h)
      cases mark <;> simp [unmarked] <;> omega

theorem exact_removeAll [BEq α] (precedes : α → α → Bool) (targets items : List α) :
    Exact items (removeAll precedes targets items) := by
  unfold removeAll
  dsimp only
  split
  · next hmarked =>
    have hfewer := length_unmarked (length_doomed precedes (stableSort precedes targets) items)
    have hsome := List.count_pos_iff.mpr (List.contains_iff_mem.mp hmarked)
    exact .of_ne (ne_of_length_lt (by omega))
  · exact .same items

theorem exact_removeIndex (index : Nat) (items : List α) :
    Exact items (removeIndex index items) := by
  unfold removeIndex
  split
  · exact .same items
  · next hlt =>
    have hlt := Nat.lt_of_not_le hlt
    have hlength := List.length_eraseIdx_of_lt hlt
    exact .of_ne (ne_of_length_lt (by omega))

theorem exact_removeIndices (indices : List Nat) (items : List α) :
    Exact items (removeIndices indices items) := by
  rw [removeIndices_eq]
  cases hany : indices.any (· < items.length) with
  | false =>
    have hall : ∀ entry ∈ items.zipIdx, (!indices.contains entry.2) = true := by
      intro entry hentry
      have hlt := (List.mem_zipIdx hentry).2.1
      have hout : entry.2 ∉ indices := fun hmem => by
        have := List.any_eq_false.mp hany entry.2 hmem
        simp at this
        omega
      simpa using hout
    rw [List.filter_eq_self.mpr hall, List.zipIdx_map_fst]
    exact .same items
  | true =>
    obtain ⟨index, hindex, hlt⟩ := List.any_eq_true.mp hany
    have hlt := of_decide_eq_true hlt
    refine .of_ne fun heq => ?_
    have hkept := congrArg List.length heq
    rw [List.length_map, ← List.length_zipIdx (l := items) (i := 0),
      List.length_filter_eq_length_iff] at hkept
    have hstays := hkept (items[index], index) (List.mk_mem_zipIdx_iff_getElem?.mpr
      (List.getElem?_eq_getElem hlt))
    simp [hindex] at hstays

theorem exact_clear (items : List α) : Exact items (clear items) := by
  cases items with
  | nil => exact .same []
  | cons first rest => exact .of_ne (List.cons_ne_nil first rest).symm

end SortedItems

open SortedItems

variable {α L : Type} [BEq α] {precedes : α → α → Bool}
  [IsStrictWeakOrder α fun a b => before precedes a b = true]

/-- The flag of every call is exact. -/
theorem ListCall.exact_change (call : ListCall α) {items : List α} (h : Sorted precedes items) :
    Exact items (call.change precedes items) := by
  cases call with
  | add item limit => exact h.exact_add item limit
  | addAll batch limit => exact exact_addAll precedes batch limit items
  | remove item => exact exact_remove precedes item items
  | removeAll targets => exact exact_removeAll precedes targets items
  | removeIndex index => exact exact_removeIndex index items
  | removeIndices indices => exact exact_removeIndices indices items
  | clear => exact exact_clear items

namespace SortedList

omit [BEq α] [IsStrictWeakOrder α fun a b => before precedes a b = true] in
/-- Where the flag is exact, so are the notices. -/
theorem notices_change {l : SortedList α L} {f : List α → List α × Bool}
    (hexact : Exact l.toList (f l.toList)) :
    let w := l.change f
    (w.state.toList ≠ l.toList → w.result = true ∧ w.called = l.items.listeners.map (·.2)) ∧
      (w.state.toList = l.toList → w.result = false ∧ w.called = []) := by
  intro w
  have hstate : w.state.toList = (f l.toList).1 := toList_change l f
  have hresult : w.result = (f l.toList).2 := result_change l f
  have hcalled : w.called = if w.result then l.items.listeners.map (·.2) else [] :=
    called_change l f
  rw [hcalled, hresult, hstate]
  constructor
  · intro hchanged
    have htold := hexact.mpr hchanged
    exact ⟨htold, if_pos htold⟩
  · intro hsame
    have hquiet : ¬ (f l.toList).2 = true := fun htold => hexact.mp htold hsame
    exact ⟨Bool.eq_false_iff.mpr hquiet, if_neg hquiet⟩

/-- **Notices are exact.** A call that changes the items tells everyone who is subscribed, each
once and in the order in which they subscribed, and its result says so; a call that leaves the items
as they are tells nobody. -/
theorem notices_exact (items : List α) (steps : List (ListStep α L)) (call : ListCall α) :
    let l : SortedList α L := reached precedes items steps
    let w := l.perform call
    (w.state.toList ≠ l.toList → w.result = true ∧ w.called = l.items.listeners.map (·.2)) ∧
      (w.state.toList = l.toList → w.result = false ∧ w.called = []) := by
  intro l w
  have hprecedes : l.precedes = precedes := precedes_reached items steps
  have hsorted : Sorted precedes l.toList := sorted_reached items steps
  have hw : w = l.change (call.change precedes) := hprecedes ▸ perform_eq_change l call
  rw [hw]
  exact notices_change (call.exact_change hsorted)

end SortedList

/-- At the limit an item tied with the last one is refused, and one in front of it gets in. -/
theorem SortedList.notices_exact_full :
    let steps : List (ListStep (Nat × Nat) String) :=
      [.call (.addAll [(2, 0), (1, 1), (2, 2)] none), .subscribe "a", .subscribe "b",
        .unsubscribe 1, .subscribe "c"]
    let l : SortedList (Nat × Nat) String := reached firstAtMost [] steps
    (l.perform (.add (2, 3) (some 3))).called = [] ∧
      (l.perform (.add (1, 3) (some 3))).called = ["b", "c"] := by
  have := isStrictWeakOrder_firstAtMost
  intro steps l
  refine ⟨?_, ?_⟩
  · exact ((notices_exact [] steps (.add (2, 3) (some 3))).2 (by decide +kernel)).2
  · exact ((notices_exact [] steps (.add (1, 3) (some 3))).1 (by decide +kernel)).2

end Palette
