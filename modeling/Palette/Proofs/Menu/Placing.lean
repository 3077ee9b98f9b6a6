import Palette.Proofs.Menu.Appending

/-!
# Placing items in menus

An item that is added at an index gets a priority between those of its neighbours there, and the
list finds its place by this priority again. If nothing is rounded, the priority precedes none of
the entries before the index, and none of those from there on precedes it. So the item gets to the
index, unless entries from there on have the very same priority. That is so if the neighbours are
tied: nothing fits between them then, and the item gets behind all that are tied with them.

Main statement: `Menu.placed`.
-/

namespace Palette

open SortedItems

variable {ι L : Type}

/-! ## Priorities between others -/

namespace SortOrder

variable (order : SortOrder) {a b : ℚ}

theorem precedes_antisymm (hab : order.precedes a b = true) (hba : order.precedes b a = true) :
    a = b := by
  simp only [precedes, Priority.atMost] at hab hba
  cases order with
  | highestFirst => exact le_antisymm (of_decide_eq_true hba) (of_decide_eq_true hab)
  | lowestFirst => exact le_antisymm (of_decide_eq_true hab) (of_decide_eq_true hba)

/-- The middle of two priorities is between them. -/
theorem precedes_middle (h : order.precedes a b = true) :
    order.precedes a (Priority.halve (Priority.add a b)) = true ∧
      order.precedes (Priority.halve (Priority.add a b)) b = true := by
  cases order <;> simp only [precedes, Priority.atMost, decide_eq_true_eq, Priority.halve,
    Priority.add] at h ⊢ <;> constructor <;> linarith

theorem middle_eq_right_iff : Priority.halve (Priority.add a b) = b ↔ a = b := by
  simp only [Priority.halve, Priority.add]
  constructor <;> intro h <;> linarith

/-- The previous priority is strictly in front. -/
theorem precedes_previous (b : ℚ) :
    order.precedes (Priority.subtract b order.later) b = true ∧
      Priority.subtract b order.later ≠ b := by
  cases order <;> simp only [precedes, Priority.atMost, ne_eq, decide_eq_true_eq] <;>
    simp only [later, Priority.subtract, Priority.negate, Priority.step] <;>
    refine ⟨?_, fun h => ?_⟩ <;> linarith

/-- The priority between the last of some entries and the first of others. -/
def amid (order : SortOrder) (front back : List (MenuEntry ι ℚ)) : ℚ :=
  order.between (front.getLast?.map (·.priority)) (back.head?.map (·.priority))

section

variable {order : SortOrder} {front back : List (MenuEntry ι ℚ)}

/-- **No entry in front follows the priority between.** -/
theorem precedes_amid (h : Sorted order.atOrBefore (front ++ back)) :
    ∀ a ∈ front, order.precedes a.priority (order.amid front back) = true := by
  intro a ha
  obtain ⟨hfront, -, hacross⟩ := List.pairwise_append.mp h
  obtain ⟨q, hlast, hq⟩ := exists_last_priority hfront ha
  rw [amid, hlast]
  cases back with
  | nil =>
    have hnext := order.precedes_next hq
    have htotal := order.precedes_total (same_rat a.priority) (same_rat (q + order.later))
    exact htotal.resolve_right (Bool.eq_false_iff.mp hnext)
  | cons b back =>
    obtain ⟨last, hmem, rfl⟩ := Option.map_eq_some_iff.mp hlast
    have hbefore := hacross last (List.mem_of_getLast? hmem) b List.mem_cons_self
    have hqb := (order.not_before_iff last.isNumbered_rat b.isNumbered_rat).mp hbefore
    exact order.precedes_trans hq (order.precedes_middle hqb).1

/-- The priority between follows no entry behind, and it is that of the first one only if the last
one in front has it too. -/
theorem amid_precedes_head {b : MenuEntry ι ℚ} (h : Sorted order.atOrBefore (front ++ b :: back)) :
    order.precedes (order.amid front (b :: back)) b.priority = true ∧
      (order.amid front (b :: back) = b.priority ↔
        front.getLast?.map (·.priority) = some b.priority) := by
  cases hlast : front.getLast? with
  | none =>
    rw [amid, hlast]
    have hprevious := order.precedes_previous b.priority
    exact ⟨hprevious.1, iff_of_false hprevious.2 nofun⟩
  | some a =>
    have hbefore := (List.pairwise_append.mp h).2.2 a (List.mem_of_getLast? hlast) b
      List.mem_cons_self
    have hab := (order.not_before_iff a.isNumbered_rat b.isNumbered_rat).mp hbefore
    rw [amid, hlast]
    exact ⟨(order.precedes_middle hab).2, middle_eq_right_iff.trans Option.some_inj.symm⟩

/-- **An entry behind precedes the priority between only if it has the same.** -/
theorem precedes_amid_iff (h : Sorted order.atOrBefore (front ++ back)) :
    ∀ b ∈ back, order.precedes b.priority (order.amid front back) = true ↔
      b.priority = order.amid front back := by
  intro b hb
  constructor
  · intro hprecedes
    refine order.precedes_antisymm hprecedes ?_
    cases back with
    | nil => cases hb
    | cons first back =>
      have hfirst := (amid_precedes_head h).1
      rcases List.mem_cons.mp hb with rfl | hb
      · exact hfirst
      · have hbehind := (List.pairwise_append.mp h).2.1
        have hbefore := (List.pairwise_cons.mp hbehind).1 b hb
        exact order.precedes_trans hfirst
          ((order.not_before_iff first.isNumbered_rat b.isNumbered_rat).mp hbefore)
  · intro heq
    rw [← heq]
    exact order.precedes_refl_rat _

/-- Entries behind have the priority between only if the neighbours are tied. -/
theorem exists_amid_iff (h : Sorted order.atOrBefore (front ++ back)) :
    (∃ e ∈ back, e.priority = order.amid front back) ↔
      ∃ a ∈ front.getLast?, ∃ b ∈ back.head?, a.priority = b.priority := by
  cases back with
  | nil => simp
  | cons b back =>
    obtain ⟨hhead, hiff⟩ := amid_precedes_head h
    constructor
    · rintro ⟨e, he, heq⟩
      have hbe : order.precedes b.priority e.priority = true := by
        rcases List.mem_cons.mp he with rfl | he
        · exact order.precedes_refl_rat _
        · have hbefore := (List.pairwise_cons.mp (List.pairwise_append.mp h).2.1).1 e he
          exact (order.not_before_iff b.isNumbered_rat e.isNumbered_rat).mp hbefore
      have hamid : order.amid front (b :: back) = b.priority :=
        order.precedes_antisymm hhead (heq ▸ hbe)
      obtain ⟨a, hlast, hab⟩ := Option.map_eq_some_iff.mp (hiff.mp hamid)
      exact ⟨a, hlast, b, rfl, hab⟩
    · rintro ⟨a, hlast, b', hhead', hab⟩
      obtain rfl : b = b' := Option.some.inj hhead'
      exact ⟨b, List.mem_cons_self, (hiff.mpr (by rw [hlast, ← hab]; rfl)).symm⟩

end

end SortOrder

/-! ## Places in the list -/

/-- A number gets behind the entries that it does not precede. -/
theorem NumberedList.exists_place {π : Type} [Priority π] [LawfulPriority π] {order : SortOrder}
    {items : List (MenuEntry ι π)} {e : MenuEntry ι π} (hitems : NumberedList items)
    (he : e.IsNumbered) (h : Sorted order.atOrBefore items) :
    ∃ front back, items = front ++ back ∧ (∀ a ∈ front, order.atOrBefore a e = true) ∧
      (∀ b ∈ back, order.atOrBefore b e = false) ∧
        add order.atOrBefore e none items = (front ++ e :: back, true) := by
  lift items to List (NumberedEntry ι π) using hitems
  lift e to NumberedEntry ι π using he
  obtain ⟨front, back, rfl, hfront, hback, hpoint⟩ := ((sorted_map _).mp h).exists_place e
  refine ⟨front.map Subtype.val, back.map Subtype.val, List.map_append, ?_, ?_, ?_⟩
  · refine List.forall_mem_map.mpr fun a ha => ?_
    exact (order.not_before_iff a.2 e.2).mp (hfront a ha)
  · refine List.forall_mem_map.mpr fun b hb => ?_
    have hbefore : before order.atOrBefore e.val b.val = true := hback b hb
    simpa using (Bool.and_eq_true_iff.mp hbefore).2
  · rw [add_map]
    simp only [add, hpoint, insertIdx_length_append]
    simp

namespace Menu

variable {m : Menu ι ℚ L} {order : SortOrder}

theorem priorityAt_eq (m : Menu ι ℚ L) (index : Nat) :
    m.priorityAt index = m.config.order.amid (m.listed.take index) (m.listed.drop index) := by
  have hbefore : (if min index m.listed.length = 0 then none
      else m.listed[min index m.listed.length - 1]?) = (m.listed.take index).getLast? := by
    rw [List.take_eq_take_min, List.getLast?_take]
    split
    · rfl
    · next hpos =>
      rw [List.getElem?_eq_getElem (by omega)]
      rfl
  have hafter : m.listed[min index m.listed.length]? = (m.listed.drop index).head? := by
    rw [List.head?_drop]
    rcases Nat.le_total index m.listed.length with hle | hle
    · rw [Nat.min_eq_left hle]
    · rw [Nat.min_eq_right hle, List.getElem?_eq_none (Nat.le_refl _), List.getElem?_eq_none hle]
  rw [SortOrder.amid, ← hbefore, ← hafter]
  rfl

/-- The entries on either side of an index have the same priority. -/
def TiedAt (m : Menu ι ℚ L) (index : Nat) : Prop :=
  ∃ a ∈ (m.listed.take index).getLast?, ∃ b ∈ (m.listed.drop index).head?, a.priority = b.priority

instance (m : Menu ι ℚ L) (index : Nat) : Decidable (m.TiedAt index) :=
  inferInstanceAs (Decidable (∃ a ∈ (m.listed.take index).getLast?,
    ∃ b ∈ (m.listed.drop index).head?, a.priority = b.priority))

section

variable (horder : m.config.order = order) (hsorted : Sorted order.atOrBefore m.listed)
include horder hsorted

theorem countP_take_priorityAt (index : Nat) (item : ι) :
    (m.listed.take index).countP (order.atOrBefore · ⟨m.priorityAt index, item⟩)
      = min index m.listed.length := by
  rw [← List.length_take, List.countP_eq_length, m.priorityAt_eq, horder]
  rw [← List.take_append_drop index m.listed] at hsorted
  exact SortOrder.precedes_amid hsorted

theorem countP_drop_priorityAt (index : Nat) (item : ι) :
    (m.listed.drop index).countP (order.atOrBefore · ⟨m.priorityAt index, item⟩)
      = (m.listed.drop index).countP (·.priority = m.priorityAt index) := by
  rw [m.priorityAt_eq, horder]
  rw [← List.take_append_drop index m.listed] at hsorted
  refine List.countP_congr fun b hb => ?_
  exact (SortOrder.precedes_amid_iff hsorted b hb).trans decide_eq_true_iff.symm

theorem countP_priorityAt_eq_zero_iff (index : Nat) :
    (m.listed.drop index).countP (·.priority = m.priorityAt index) = 0 ↔ ¬ m.TiedAt index := by
  rw [List.countP_eq_zero, m.priorityAt_eq, horder]
  rw [← List.take_append_drop index m.listed] at hsorted
  rw [TiedAt, ← SortOrder.exists_amid_iff hsorted]
  simp

/-- An item that is added at an index gets there, or behind those from there on that have the
priority it is given. -/
theorem exists_place_addItemAt (hlimit : m.config.maxItems = none)
    (hprecedes : m.entries.precedes = order.atOrBefore) (inRuntime : Bool) (item : ι)
    (index : Nat) :
    ∃ front back, m.listed = front ++ back ∧
      front.length = min index m.listed.length
        + (m.listed.drop index).countP (·.priority = m.priorityAt index) ∧
      (m.addItemAt inRuntime false item index).state.listed
        = front ++ ⟨m.priorityAt index, item⟩ :: back := by
  let e : MenuEntry ι ℚ := ⟨m.priorityAt index, item⟩
  obtain ⟨front, back, hlisted, hfront, hback, hadd⟩ :=
    NumberedList.exists_place (fun a _ => a.isNumbered_rat) e.isNumbered_rat hsorted
  refine ⟨front, back, hlisted, ?_, ?_⟩
  · calc front.length
      _ = m.listed.countP (order.atOrBefore · e) := by
        rw [hlisted, List.countP_append, List.countP_eq_length.mpr hfront,
          List.countP_eq_zero.mpr fun b hb => by simp [hback b hb], Nat.add_zero]
      _ = (m.listed.take index).countP (order.atOrBefore · e)
            + (m.listed.drop index).countP (order.atOrBefore · e) := by
        rw [← List.countP_append, List.take_append_drop]
      _ = _ := by
        rw [countP_take_priorityAt horder hsorted, countP_drop_priorityAt horder hsorted]
  · have hstate : (m.addItemAt inRuntime false item index).state.listed =
        (add m.entries.precedes e m.config.maxItems m.listed).1 :=
      SortedList.toList_change _ _
    rw [hstate, hprecedes, hlimit, hadd]

end

theorem result_readItems {π : Type} [Priority π] {m : Menu ι π L} (h : m.pending = []) :
    m.readItems.result = m.listed.map (·.item) := by
  have hflush : m.flush.state.listed = m.listed := by rw [m.flush_of_nil h, listed_callOff]
  rw [← hflush]
  rfl

variable [BEq ι] [LawfulBEq ι] {config : MenuConfig}

/-- **Where an item gets that is added at an index.**

If nothing is rounded and nothing is pending, an item that is not in the menu gets among the others,
which stay as they are. It gets to the index, or to the end of a shorter list, unless the entries on
either side of the index have the same priority; then it gets behind those that have it. -/
theorem placed (hlimit : config.maxItems = none) (calls : List (MenuCall ι ℚ L))
    (inRuntime : Bool) (item : ι) (index : Nat) :
    let m : Menu ι ℚ L := reached config calls
    let items := m.readItems.result
    let items' := (m.addItemAt inRuntime false item index).state.readItems.result
    m.pending = [] → item ∉ items →
      items'.erase item = items ∧
        items'.idxOf item = min index items.length
          + (m.listed.drop index).countP (·.priority = m.priorityAt index) ∧
        (items'.idxOf item = min index items.length ↔ ¬ m.TiedAt index) := by
  intro m items items' hpending hnew
  have hconfig : m.config = config := config_reached config calls
  have hsorted : Sorted config.order.atOrBefore m.listed :=
    sorted_reached hlimit calls fun e _ => e.isNumbered_rat
  obtain ⟨front, back, hlisted, hlength, hadded⟩ := exists_place_addItemAt
    (congrArg MenuConfig.order hconfig) hsorted (hconfig ▸ hlimit) (precedes_reached config calls)
    inRuntime item index
  have hitems : items = front.map (·.item) ++ back.map (·.item) := by
    rw [← List.map_append, ← hlisted]
    exact result_readItems hpending
  have hitems' : items' = front.map (·.item) ++ item :: back.map (·.item) :=
    calc items'
      _ = (m.addItemAt inRuntime false item index).state.listed.map (·.item) :=
        result_readItems hpending
      _ = _ := by rw [hadded, List.map_append, List.map_cons]
  have hfront : item ∉ front.map (·.item) := fun hmem =>
    hnew (hitems ▸ List.mem_append_left _ hmem)
  have hcount : items.length = m.listed.length := by
    rw [hitems, hlisted, List.length_append, List.length_append, List.length_map, List.length_map]
  have hplace : items'.idxOf item = min index items.length
      + (m.listed.drop index).countP (·.priority = m.priorityAt index) := by
    rw [hitems', List.idxOf_append_of_notMem hfront, List.idxOf_cons_self, List.length_map,
      Nat.add_zero, hlength, hcount]
  refine ⟨?_, hplace, ?_⟩
  · rw [hitems', hitems, List.erase_append_right _ hfront, List.erase_cons_head]
  · rw [hplace, ← countP_priorityAt_eq_zero_iff (congrArg MenuConfig.order hconfig) hsorted]
    omega

end Menu

/-- An item gets between two others. -/
theorem Menu.placed_between :
    let calls : List (MenuCall String ℚ Unit) := [.addItem true false "a", .addItem true false "b"]
    let m : Menu String ℚ Unit := reached .standard calls
    let items' := (m.addItemAt true false "c" 1).state.readItems.result
    m.pending = [] ∧ "c" ∉ m.readItems.result ∧ ¬ m.TiedAt 1 ∧
      items'.erase "c" = m.readItems.result ∧ items'.idxOf "c" = 1 := by
  intro calls m items'
  have hpending : m.pending = [] := rfl
  have hnew : "c" ∉ m.readItems.result := by decide +kernel
  have hfree : ¬ m.TiedAt 1 := by decide +kernel
  obtain ⟨hothers, -, hplace⟩ := placed rfl calls true "c" 1 hpending hnew
  have hindex : min 1 m.readItems.result.length = 1 := by decide +kernel
  exact ⟨hpending, hnew, hfree, hothers, (hplace.mpr hfree).trans hindex⟩

/-- Nothing gets between entries with the same priority. -/
theorem Menu.not_placed_between_ties :
    let calls : List (MenuCall String ℚ Unit) :=
      [.addEntry true false ⟨0, "a"⟩, .addEntry true false ⟨0, "b"⟩]
    let m : Menu String ℚ Unit := reached .standard calls
    let items' := (m.addItemAt true false "c" 1).state.readItems.result
    m.pending = [] ∧ m.readItems.result = ["a", "b"] ∧ items' = ["a", "b", "c"] ∧
      items'.idxOf "c" ≠ min 1 m.readItems.result.length := by
  decide +kernel

end Palette
