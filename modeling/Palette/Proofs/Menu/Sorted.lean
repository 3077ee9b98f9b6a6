import Palette.Proofs.Menu.Calls
import Palette.Proofs.Menu.Priorities

/-!
# Sorted menus

What is listed is sorted, unless a priority among it is not a number. Such an entry may get into a
list and make halving miss others, but then it stays there: an entry is found by what equals it, and
it equals nothing. So if all priorities are numbers at last, they have been so all along.

In a sorted list removals find what they look for: the first entry that is named is withdrawn.

Main statements: `Menu.sorted_reached`, `Removal.withdraw_eq`.
-/

namespace Palette

variable {ι π L : Type} [BEq ι] [LawfulBEq ι] [Priority π] [LawfulPriority π]

open SortedItems

/-! ## Withdrawals -/

/-- The first entry that is named is withdrawn, if there is one. -/
theorem Removal.withdraw_eq {order : SortOrder} {listed : List (MenuEntry ι π)}
    (hnumbered : NumberedList listed) (h : Sorted order.atOrBefore listed) (r : Removal ι π) :
    r.withdraw order.atOrBefore listed = (listed.eraseP r.names, listed.any r.names) := by
  cases r with
  | entry entry => exact hnumbered.remove_eq h
  | item item =>
    cases htarget : listed.find? (·.holds item) with
    | none =>
      have hnone : ∀ e ∈ listed, ¬ Removal.names (.item item) e = true :=
        List.find?_eq_none.mp htarget
      have hany : listed.any (Removal.names (.item item)) = false := List.any_eq_false.mpr hnone
      rw [hany, List.eraseP_of_forall_not hnone]
      simp only [withdraw, target?, htarget]
    | some target =>
      obtain ⟨hholds, front, back, rfl, hfront⟩ := List.find?_eq_some_iff_append.mp htarget
      have hitem : target.item = item := eq_of_beq hholds
      have hmem : target ∈ front ++ target :: back := by simp
      -- the target is the first one with the item and so the first one that equals itself
      have herase : ∀ p : MenuEntry ι π → Bool, p target = true → (∀ a ∈ front, ¬ p a = true) →
          ((front ++ target :: back).eraseP p, (front ++ target :: back).any p) =
            (front ++ back, true) := by
        intro p htarget hfront
        rw [List.any_eq_true.mpr ⟨target, hmem, htarget⟩, List.eraseP_append_right _ hfront,
          List.eraseP_cons_of_pos htarget]
      have hself : (target == target) = true :=
        Bool.and_eq_true_iff.mpr ⟨hnumbered target hmem, beq_self_eq_true _⟩
      have hunlike : ∀ a ∈ front, ¬ (a == target) = true := by
        intro a ha heq
        have hsame : a.item = target.item := eq_of_beq (Bool.and_eq_true_iff.mp heq).2
        simpa [MenuEntry.holds, hsame, hitem] using hfront a ha
      calc withdraw order.atOrBefore (.item item) (front ++ target :: back)
        _ = SortedItems.remove order.atOrBefore target (front ++ target :: back) := by
          simp only [withdraw, target?, htarget]
        _ = (front ++ back, true) := by
          rw [hnumbered.remove_eq h, herase (· == target) hself hunlike]
        _ = _ := (herase _ hholds fun a ha => by simpa [names] using hfront a ha).symm

/-! ## Operations on sorted menus -/

omit [BEq ι] [LawfulBEq ι] [Priority π] [LawfulPriority π] in
theorem Menu.listed_flush {m : Menu ι π L} (hlimit : m.config.maxItems = none) :
    m.flush.state.listed = merged m.entries.precedes m.listed m.pending := by
  by_cases h : m.pending = []
  · rw [m.flush_of_nil h, listed_callOff, h, merged_nil]
  · rw [m.flush_of_ne_nil h, ← fst_addAll_none, ← hlimit]
    exact SortedList.toList_change _ _

omit [BEq ι] [LawfulBEq ι] in
/-- A batch of numbers is merged into a sorted list. -/
theorem Menu.flushed_sorted {m : Menu ι π L} {order : SortOrder}
    (hlimit : m.config.maxItems = none) (hprecedes : m.entries.precedes = order.atOrBefore)
    (hsorted : Sorted order.atOrBefore m.listed) (hlisted : NumberedList m.listed)
    (hpending : NumberedList m.pending) :
    m.flush.state.listed = merged order.atOrBefore m.listed m.pending ∧
      Sorted order.atOrBefore m.flush.state.listed ∧ NumberedList m.flush.state.listed ∧
      m.flush.state.entries.precedes = order.atOrBefore := by
  have hflush := hprecedes ▸ listed_flush hlimit
  refine ⟨hflush, ?_, ?_, (precedes_flush m).trans hprecedes⟩
  · rw [hflush]
    exact hlisted.sorted_merged hpending hsorted
  · rw [hflush]
    intro e he
    exact (List.mem_append.mp ((merged_perm _ _ _).mem_iff.mp he)).elim (hlisted e) (hpending e)

section

variable {m : Menu ι π L} {order : SortOrder} (hsorted : Sorted order.atOrBefore m.listed)
  (hnumbered : NumberedList m.listed) (hprecedes : m.entries.precedes = order.atOrBefore)

include hsorted hnumbered hprecedes

theorem Menu.listed_remove_sorted (r : Removal ι π) :
    (m.remove r).state.listed = m.listed.eraseP r.names := by
  rw [listed_remove, hprecedes, r.withdraw_eq hnumbered hsorted]

theorem Menu.result_remove_sorted (r : Removal ι π) :
    (m.remove r).result = (m.listed ++ m.pending).any r.names := by
  rw [result_remove, hprecedes, r.withdraw_eq hnumbered hsorted, List.any_append, Bool.or_comm]

end

/-! ## Runs -/

/-- A move leaves sorted what was sorted, as long as there are but numbers. -/
theorem MenuMove.sorted {order : SortOrder} {listed pending listed' pending' : List (MenuEntry ι π)}
    {put : Option (MenuEntry ι π)} {removal : Option (Removal ι π)}
    (hmove : MenuMove order.atOrBefore none listed pending put removal listed' pending')
    (h : NumberedList listed → Sorted order.atOrBefore listed)
    (hnumbered : NumberedList listed') : Sorted order.atOrBefore listed' := by
  have hmerged (batch : List (MenuEntry ι π))
      (hmerged : NumberedList (merged order.atOrBefore listed batch)) :
      Sorted order.atOrBefore (merged order.atOrBefore listed batch) := by
    have hall := fun e he => hmerged e ((merged_perm order.atOrBefore listed batch).mem_iff.mpr he)
    have hlisted : NumberedList listed := fun e he => hall e (List.mem_append_left batch he)
    have hbatch : NumberedList batch := fun e he => hall e (List.mem_append_right listed he)
    exact hlisted.sorted_merged hbatch (h hlisted)
  cases hmove with
  | rest | wait => exact h hnumbered
  | flush =>
    rw [fst_addAll_none] at hnumbered ⊢
    exact hmerged _ hnumbered
  | merge e =>
    rw [fst_addAll_none] at hnumbered ⊢
    exact hmerged _ hnumbered
  | list e =>
    have hall := fun a ha =>
      hnumbered a ((fst_add_none_perm order.atOrBefore e listed).mem_iff.mpr ha)
    have hlisted : NumberedList listed := fun a ha => hall a (List.mem_cons_of_mem e ha)
    exact hlisted.sorted_add (hall e List.mem_cons_self) (h hlisted) none
  | withdraw r =>
    rcases Removal.exists_of_withdraw order.atOrBefore r listed with
      ⟨front, found, back, rfl, -, ⟨target, hequal⟩, hwithdraw⟩ | hwithdraw
    · rw [hwithdraw] at hnumbered ⊢
      -- what was found has a number, since it equals something
      have hfound : found.IsNumbered :=
        (MenuEntry.IsNumbered.of_same (Bool.and_eq_true_iff.mp hequal).1).1
      have hlisted : NumberedList (front ++ found :: back) := by
        intro e he
        rcases List.mem_cons.mp (List.perm_middle.mem_iff.mp he) with rfl | he
        · exact hfound
        · exact hnumbered e he
      exact (h hlisted).sublist ((List.sublist_cons_self found back).append_left front)
    · rw [hwithdraw] at hnumbered ⊢
      exact h hnumbered

/-- **What is listed is sorted**, if all of it has numbers for priorities. -/
theorem Menu.sorted_reached {config : MenuConfig} (hlimit : config.maxItems = none)
    (calls : List (MenuCall ι π L))
    (h : NumberedList (reached config calls : Menu ι π L).listed) :
    Sorted config.order.atOrBefore (reached config calls : Menu ι π L).listed := by
  induction calls using List.reverseRecOn with
  | nil => exact List.Pairwise.nil
  | append_singleton calls call ih =>
    have hmove := ((reached config calls).follows_step call).entries
    rw [← reached_concat, precedes_reached, config_reached, hlimit] at hmove
    exact hmove.sorted ih h

end Palette
