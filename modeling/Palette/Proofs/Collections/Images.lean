import Mathlib.Data.List.InsertIdx
import Palette.Proofs.Collections.Merging

/-!
# Images of sorted lists

What is done to a list depends on how its items compare and on nothing else. So if items are seen
through `f`, and compared as their images are, the operations on the items and on the images agree.
This lets a list whose items have something in common be treated as a list of such items.

Main statements: `add_map`, `addAll_map`, `remove_map`.
-/

namespace Palette

variable {α β : Type _} (f : β → α)

theorem probe_map (p : α → Bool) (items : List β) (i : Nat) :
    probe p (items.map f) i = probe (fun b => p (f b)) items i := by
  unfold probe
  rw [List.getElem?_map]
  cases items[i]? <;> rfl

theorem partitionFrom_map (p : α → Bool) (items : List β) (base size : Nat) :
    partitionFrom p (items.map f) base size =
      partitionFrom (fun b => p (f b)) items base size := by
  fun_induction partitionFrom (fun b => p (f b)) items base size with
  | case1 base size hsize ih =>
    rw [partitionFrom, if_pos hsize, probe_map]
    exact ih
  | case2 base size hsize hprobe => rw [partitionFrom, if_neg hsize, probe_map, if_pos hprobe]
  | case3 base size hsize hprobe => rw [partitionFrom, if_neg hsize, probe_map, if_neg hprobe]

theorem partitionPoint_map (p : α → Bool) (items : List β) :
    partitionPoint p (items.map f) = partitionPoint (fun b => p (f b)) items := by
  simp only [partitionPoint, List.isEmpty_map, List.length_map, partitionFrom_map]

namespace SortedItems

variable (precedes : α → α → Bool)

/-- Compares items as their images are compared. -/
def comparing (a b : β) : Bool := precedes (f a) (f b)

theorem insertLast_map (item : β) (items : List β) :
    insertLast precedes (f item) (items.map f) =
      (insertLast (comparing f precedes) item items).map f := by
  induction items with
  | nil => rfl
  | cons last rest ih =>
    have hsame : before precedes (f item) (f last) = before (comparing f precedes) item last := rfl
    simp only [insertLast, List.map_cons, ih, hsame]
    split <;> rfl

theorem stableSort_map (items : List β) :
    stableSort precedes (items.map f) = (stableSort (comparing f precedes) items).map f := by
  have key : ∀ items sorted : List β,
      (items.map f).foldl (fun sorted item => insertLast precedes item sorted) (sorted.map f) =
        (items.foldl (fun sorted item => insertLast (comparing f precedes) item sorted)
          sorted).map f := by
    intro items
    induction items with
    | nil => exact fun _ => rfl
    | cons item rest ih =>
      intro sorted
      rw [List.map_cons, List.foldl_cons, List.foldl_cons, insertLast_map, ih]
  rw [stableSort, stableSort, List.map_reverse]
  exact congrArg List.reverse (key items [])

theorem mergeUpTo_map (limit : Nat) (old new : List β) :
    mergeUpTo precedes limit (old.map f) (new.map f) =
      ((mergeUpTo (comparing f precedes) limit old new).1.map f,
        (mergeUpTo (comparing f precedes) limit old new).2) := by
  fun_induction mergeUpTo (comparing f precedes) limit old new with
  | case1 old => simp [mergeUpTo]
  | case2 => rfl
  | case3 limit n new ih => simp [mergeUpTo, List.map_nil ▸ ih]
  | case4 limit o old rest ih => simp [mergeUpTo, List.map_nil ▸ ih, rest]
  | case5 limit o old n new h ih =>
    have hbefore : before precedes (f n) (f o) = true := h
    simp only [List.map_cons, mergeUpTo, if_pos hbefore] at ih ⊢
    rw [ih]
  | case6 limit o old n new h rest ih =>
    have hbefore : ¬ before precedes (f n) (f o) = true := h
    simp only [List.map_cons, mergeUpTo, if_neg hbefore] at ih ⊢
    rw [ih]

theorem add_map (item : β) (limit : Option Nat) (items : List β) :
    add precedes (f item) limit (items.map f) =
      (add (comparing f precedes) item limit items).map (List.map f) id := by
  have hindex : partitionPoint (fun existing => !before precedes (f item) existing) (items.map f) =
      partitionPoint (fun existing => !before (comparing f precedes) item existing) items :=
    partitionPoint_map f _ items
  cases limit with
  | none => simp [add, hindex, List.map_insertIdx]
  | some limit =>
    simp only [add, hindex, List.length_map]
    split <;> simp [List.map_insertIdx, List.map_take]

theorem addAll_map (batch : List β) (limit : Option Nat) (items : List β) :
    addAll precedes (batch.map f) limit (items.map f) =
      (addAll (comparing f precedes) batch limit items).map (List.map f) id := by
  simp only [addAll, stableSort_map, List.length_map, List.isEmpty_map, mergeUpTo_map]
  split <;> rfl

theorem sorted_map {precedes : α → α → Bool} {items : List β} :
    Sorted precedes (items.map f) ↔ Sorted (comparing f precedes) items :=
  List.pairwise_map

theorem merged_map (items batch : List β) :
    merged precedes (items.map f) (batch.map f) =
      (merged (comparing f precedes) items batch).map f := by
  rw [← fst_addAll_none, ← fst_addAll_none, addAll_map, Prod.map_fst]

/-- Items are equal if their images are. -/
theorem position_map [BEq α] (item : β) (items : List β) :
    position precedes (f item) (items.map f) =
      @position β ⟨fun a b => f a == f b⟩ (comparing f precedes) item items := by
  have hstart : partitionPoint (fun existing => before precedes existing (f item)) (items.map f) =
      partitionPoint (fun existing => before (comparing f precedes) existing item) items :=
    partitionPoint_map f _ items
  simp only [position, hstart, ← List.map_drop, List.takeWhile_map, List.findIdx?_map]
  rfl

theorem remove_map [BEq α] (item : β) (items : List β) :
    remove precedes (f item) (items.map f) =
      (@remove β ⟨fun a b => f a == f b⟩ (comparing f precedes) item items).map (List.map f) id := by
  simp only [remove, position_map]
  split
  · exact congrArg (·, true) (List.eraseIdx_map f items _)
  · rfl

end SortedItems

end Palette
