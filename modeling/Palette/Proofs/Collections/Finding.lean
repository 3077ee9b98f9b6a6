import Palette.Proofs.Collections.Calls

/-!
# Finding items in sorted lists

An item is looked for among its ties: halving finds where they begin, and from there the list is
looked through as long as they last. So what is found equals the item (`exists_of_position`), and
removing it takes this one out and leaves the others where they are (`exists_of_remove`). That holds
of any list.

In a sorted list, and if whatever equals the item is tied with it, nothing is missed: the first of
all items that equal it is found (`Sorted.position_eq`), and that one is removed
(`Sorted.remove_eq`).

By a key, an item is looked for at a single place. A comparison that goes up along the items cuts
them where they stop coming before the key (`Ascends.exists_cut`). The item behind the cut is the
first one that may match, and if it comes after the key then so do all others (`Ascends.search_eq`).

Main statement: `SortedList.finds_first`.
-/

namespace Palette

namespace SortedItems

variable {α : Type _} [BEq α] {precedes : α → α → Bool} {items : List α} {item : α}

/-- What is the same is tied. -/
theorem before_eq_false_of_beq [LawfulBEq α] {a b : α} (h : (a == b) = true) :
    before precedes a b = false ∧ before precedes b a = false := by
  obtain rfl := eq_of_beq h
  simp [before]

/-- What is found equals the item. -/
theorem exists_of_position {index : Nat} (h : position precedes item items = some index) :
    ∃ found, items[index]? = some found ∧ (found == item) = true := by
  unfold position at h
  obtain ⟨offset, hoffset, rfl⟩ := Option.map_eq_some_iff.mp h
  obtain ⟨hlt, hfound, -⟩ := List.findIdx?_eq_some_iff_getElem.mp hoffset
  refine ⟨_, ?_, hfound⟩
  rw [← List.getElem?_drop]
  generalize items.drop _ = rest at *
  -- the ties are a front of the rest
  obtain ⟨later, hlater⟩ := List.takeWhile_prefix (fun existing => !before precedes item existing)
    (l := rest)
  calc rest[offset]?
    _ = (rest.takeWhile (fun existing => !before precedes item existing) ++ later)[offset]? := by
      rw [hlater]
    _ = (rest.takeWhile fun existing => !before precedes item existing)[offset]? :=
      List.getElem?_append_left hlt
    _ = some _ := List.getElem?_eq_getElem hlt

/-- Either one item is removed, which equals the one asked for, or none is. -/
theorem exists_of_remove (precedes : α → α → Bool) (item : α) (items : List α) :
    (∃ front found back, items = front ++ found :: back ∧ (found == item) = true ∧
      remove precedes item items = (front ++ back, true)) ∨
    remove precedes item items = (items, false) := by
  unfold remove
  split
  · next index hindex =>
    obtain ⟨found, hfound, hequal⟩ := exists_of_position hindex
    obtain ⟨hlt, rfl⟩ := List.getElem?_eq_some_iff.mp hfound
    refine .inl ⟨items.take index, _, items.drop (index + 1), ?_, hequal, ?_⟩
    · rw [← List.drop_eq_getElem_cons hlt, List.take_append_drop]
    · rw [List.eraseIdx_eq_take_drop_succ]
  · exact .inr rfl

/-! ## Searching a sorted list -/

section

variable [IsStrictWeakOrder α fun a b => before precedes a b = true]

/-- The search agrees with looking through the whole list. -/
theorem Sorted.position_eq (h : Sorted precedes items)
    (htied : ∀ a ∈ items, (a == item) = true →
      before precedes a item = false ∧ before precedes item a = false) :
    position precedes item items = items.findIdx? (· == item) := by
  have hdown : ∀ a b, before precedes b a = false → before precedes b item = true →
      before precedes a item = true := by
    intro a b hab hb
    by_contra ha
    have hitem := not_before_trans (Bool.eq_false_iff.mpr ha) hab
    simp [hitem] at hb
  obtain ⟨front, back, rfl, hfront, hback, hpoint⟩ := h.exists_cut hdown
  have hbackSorted : Sorted precedes back := h.sublist (List.sublist_append_right front back)
  have hlater := hbackSorted.before_of_mem_dropWhile item
  -- what lies in front of the ties or behind them does not equal the item
  have hnoneFront : front.findIdx? (· == item) = none := by
    refine List.findIdx?_eq_none_iff.mpr fun a ha => Bool.eq_false_iff.mpr fun heq => ?_
    have htie := (htied a (List.mem_append_left back ha) heq).1
    rw [hfront a ha] at htie
    cases htie
  have hnoneLater :
      (back.dropWhile fun b => !before precedes item b).findIdx? (· == item) = none := by
    refine List.findIdx?_eq_none_iff.mpr fun a ha => Bool.eq_false_iff.mpr fun heq => ?_
    have hmem := (List.dropWhile_sublist (fun b => !before precedes item b)).mem ha
    have htie := (htied a (List.mem_append_right front hmem) heq).2
    have hfollows := hlater a ha
    simp [htie] at hfollows
  have hties : back.findIdx? (· == item) =
      (back.takeWhile fun b => !before precedes item b).findIdx? (· == item) := by
    have hsplit := List.takeWhile_append_dropWhile (p := fun b => !before precedes item b)
      (l := back)
    rw [← hsplit, List.findIdx?_append, hsplit, hnoneLater, Option.map_none, Option.or_none]
  dsimp only [position]
  rw [hpoint, List.drop_left, List.findIdx?_append, hnoneFront, Option.none_or, hties]
  exact congrArg (Option.map · _) (funext fun _ => Nat.add_comm _ _)

/-- The first item that equals the one asked for is removed, if there is one. -/
theorem Sorted.remove_eq (h : Sorted precedes items)
    (htied : ∀ a ∈ items, (a == item) = true →
      before precedes a item = false ∧ before precedes item a = false) :
    remove precedes item items = (items.eraseP (· == item), items.any (· == item)) := by
  unfold remove
  rw [h.position_eq htied, List.eraseP_eq_eraseIdx, ← List.findIdx?_isSome]
  cases items.findIdx? (· == item) <;> rfl

end

/-! ## Searching by a key -/

/-- Along the items, those that come before a key are followed by those that match it, and these by
those that come after it. -/
def Ascends (compare : α → Ordering) (items : List α) : Prop :=
  items.Pairwise fun a b =>
    (compare b = .lt → compare a = .lt) ∧ (compare a = .gt → compare b = .gt)

section

variable {compare : α → Ordering}

omit [BEq α] in
theorem Ascends.exists_cut (h : Ascends compare items) :
    ∃ front back, items = front ++ back ∧ (∀ a ∈ front, compare a = .lt) ∧
      ∀ b ∈ back, compare b ≠ .lt := by
  induction items with
  | nil => exact ⟨[], [], rfl, nofun, nofun⟩
  | cons a rest ih =>
    obtain ⟨hfirst, hrest⟩ := List.pairwise_cons.mp h
    by_cases ha : compare a = .lt
    · obtain ⟨front, back, rfl, hfront, hback⟩ := ih hrest
      refine ⟨a :: front, back, rfl, fun b hb => ?_, hback⟩
      rcases List.mem_cons.mp hb with rfl | hb
      · exact ha
      · exact hfront b hb
    · refine ⟨[], a :: rest, rfl, nofun, fun b hb hlt => ?_⟩
      rcases List.mem_cons.mp hb with rfl | hb
      · exact ha hlt
      · exact ha ((hfirst b hb).1 hlt)

omit [BEq α] in
/-- The search agrees with comparing one item after the other. -/
theorem Ascends.search_eq (h : Ascends compare items) :
    (search compare items).map (·.1) = items.findIdx? (compare · == .eq) ∧
      (search compare items).map (·.2) = items.find? (compare · == .eq) := by
  obtain ⟨front, back, rfl, hfront, hback⟩ := h.exists_cut
  have hpoint : partitionPoint (compare · == .lt) (front ++ back) = front.length :=
    partitionPoint_eq (fun a ha => by simp [hfront a ha]) (fun b hb => by simp [hback b hb])
  have hnone : ∀ a ∈ front, (compare a == .eq) = false := fun a ha => by simp [hfront a ha]
  have hindex : front.findIdx? (compare · == .eq) = none := List.findIdx?_eq_none_iff.mpr hnone
  have hfind : front.find? (compare · == .eq) = none :=
    List.find?_eq_none.mpr fun a ha => by simp [hnone a ha]
  rw [List.findIdx?_append, List.find?_append, hindex, hfind, Option.none_or, Option.none_or]
  dsimp only [search]
  rw [hpoint, List.getElem?_append_right le_rfl, Nat.sub_self]
  cases back with
  | nil => exact ⟨rfl, rfl⟩
  | cons b later =>
    cases hb : compare b with
    | lt => exact absurd hb (hback b List.mem_cons_self)
    | eq => simp [hb, List.findIdx?_cons, Option.filter]
    | gt =>
      -- what comes later comes after the key as well
      obtain ⟨-, hrest, -⟩ := List.pairwise_append.mp h
      have hlater : ∀ a ∈ b :: later, (compare a == .eq) = false := by
        intro a ha
        rcases List.mem_cons.mp ha with rfl | ha
        · simp [hb]
        · simp [((List.pairwise_cons.mp hrest).1 a ha).2 hb]
      rw [List.findIdx?_eq_none_iff.mpr hlater,
        List.find?_eq_none.mpr fun a ha => by simp [hlater a ha]]
      simp [hb]

end

end SortedItems

open SortedItems

namespace SortedList

variable {α L : Type} [BEq α] {precedes : α → α → Bool}
  [IsStrictWeakOrder α fun a b => before precedes a b = true]

/-- **Halving finds what looking through the list finds.** Whatever happened to a list before, an
item is found where the first one stands that equals it, and that one is removed. By a comparison
that goes up along the items, the first one that matches is found. -/
theorem finds_first (items : List α) (steps : List (ListStep α L))
    (hties : ∀ a b : α, (a == b) = true →
      before precedes a b = false ∧ before precedes b a = false) :
    let l : SortedList α L := reached precedes items steps
    (∀ item, l.find? item = l.toList.findIdx? (· == item) ∧
      (l.remove item).state.toList = l.toList.eraseP (· == item) ∧
      (l.remove item).result = l.toList.any (· == item)) ∧
    ∀ compare : α → Ordering, Ascends compare l.toList →
      (l.search compare).map (·.1) = l.toList.findIdx? (compare · == .eq) ∧
      (l.search compare).map (·.2) = l.toList.find? (compare · == .eq) := by
  intro l
  have hprecedes : l.precedes = precedes := precedes_reached items steps
  have hsorted : Sorted precedes l.toList := sorted_reached items steps
  refine ⟨fun item => ?_, fun compare h => h.search_eq⟩
  have htied : ∀ a ∈ l.toList, (a == item) = true →
      before precedes a item = false ∧ before precedes item a = false :=
    fun a _ hequal => hties a item hequal
  have hremove : l.remove item =
      l.change fun _ => (l.toList.eraseP (· == item), l.toList.any (· == item)) := by
    rw [remove, hprecedes]
    exact change_congr l (hsorted.remove_eq htied)
  refine ⟨?_, ?_, ?_⟩
  · rw [find?, hprecedes, hsorted.position_eq htied]
  · rw [hremove, toList_change]
  · rw [hremove, result_change]

end SortedList

/-- Ties at both ends, of which some are equal, and an item that is tied but equals none of them. -/
theorem SortedList.finds_first_ties :
    let l : SortedList (Nat × Nat) Unit :=
      reached firstAtMost [(2, 0), (1, 1)] [.call (.addAll [(2, 2), (1, 3), (2, 0)] none)]
    let compare (a : Nat × Nat) : Ordering := Ord.compare a.1 2
    l.toList = [(1, 1), (1, 3), (2, 0), (2, 2), (2, 0)] ∧
      (l.find? (2, 2) = l.toList.findIdx? (· == (2, 2)) ∧ l.find? (2, 2) = some 3) ∧
      (l.find? (2, 1) = l.toList.findIdx? (· == (2, 1)) ∧ l.find? (2, 1) = none) ∧
      (l.remove (2, 0)).state.toList = l.toList.eraseP (· == (2, 0)) ∧
      Ascends compare l.toList ∧
      (l.search compare).map (·.1) = l.toList.findIdx? (compare · == .eq) ∧
      l.search compare = some (2, (2, 0)) := by
  have := isStrictWeakOrder_firstAtMost
  intro l compare
  obtain ⟨hfinds, hsearch⟩ := @finds_first _ Unit _ firstAtMost _ [(2, 0), (1, 1)]
    [.call (.addAll [(2, 2), (1, 3), (2, 0)] none)] fun _ _ h => before_eq_false_of_beq h
  have hitems : l.toList = [(1, 1), (1, 3), (2, 0), (2, 2), (2, 0)] := by decide +kernel
  have hascends : Ascends compare l.toList := by
    rw [hitems, Ascends]
    decide
  exact ⟨hitems, ⟨(hfinds (2, 2)).1, by decide +kernel⟩, ⟨(hfinds (2, 1)).1, by decide +kernel⟩,
    (hfinds (2, 0)).2.1, hascends, (hsearch compare hascends).1, by decide +kernel⟩

end Palette
