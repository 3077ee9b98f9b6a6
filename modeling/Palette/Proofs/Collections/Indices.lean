import Palette.Proofs.Collections.Order

/-!
# Indices removed from sorted lists

Indices may come in any order, more than once, and out of bounds. They are sorted and repeats are
erased, so that they ascend; halving then finds where they leave the bounds. One walk along the
items compares the index of each with the first index that is left. No index is passed by: they
ascend, and the walk takes one step at a time (`withoutIndices_eq`).

Main statement: `removeIndices_eq`.
-/

namespace Palette.SortedItems

/-! ## Ascending indices -/

theorem mem_eraseReps_loop (i a : Nat) (rest seen : List Nat) :
    i ∈ List.eraseRepsBy.loop (· == ·) a rest seen ↔ i ∈ seen ∨ i ∈ a :: rest := by
  induction rest generalizing a seen with
  | nil => simp [List.eraseRepsBy.loop, or_comm]
  | cons b rest ih =>
    rw [List.eraseRepsBy.loop]
    split
    · next hsame =>
      obtain rfl := eq_of_beq hsame
      rw [ih]
      simp
    · rw [ih]
      simp [or_left_comm, or_assoc]

theorem mem_eraseReps {i : Nat} {indices : List Nat} : i ∈ indices.eraseReps ↔ i ∈ indices := by
  cases indices with
  | nil => rfl
  | cons a rest => exact (mem_eraseReps_loop i a rest []).trans (by simp)

/-- What was seen before stands in front, the last of it first. -/
theorem pairwise_eraseReps_loop {a : Nat} {rest seen : List Nat}
    (hrest : (a :: rest).Pairwise (· ≤ ·)) (hseen : (a :: seen).Pairwise (· > ·)) :
    (List.eraseRepsBy.loop (· == ·) a rest seen).Pairwise (· < ·) := by
  induction rest generalizing a seen with
  | nil => exact List.pairwise_reverse.mpr hseen
  | cons b rest ih =>
    obtain ⟨ha, hrest⟩ := List.pairwise_cons.mp hrest
    rw [List.eraseRepsBy.loop]
    split
    · next hsame =>
      obtain rfl := eq_of_beq hsame
      exact ih hrest hseen
    · next hother =>
      have hab : a < b := Nat.lt_of_le_of_ne (ha b List.mem_cons_self) (by simpa using hother)
      refine ih hrest (List.pairwise_cons.mpr ⟨fun i hi => ?_, hseen⟩)
      rcases List.mem_cons.mp hi with rfl | hi
      · exact hab
      · exact ((List.pairwise_cons.mp hseen).1 i hi).trans hab

theorem ascending_eraseReps {indices : List Nat} (h : indices.Pairwise (· ≤ ·)) :
    indices.eraseReps.Pairwise (· < ·) := by
  cases indices with
  | nil => exact List.Pairwise.nil
  | cons a rest => exact pairwise_eraseReps_loop h (List.pairwise_singleton _ a)

theorem ascending_mergeSort (indices : List Nat) : indices.mergeSort.Pairwise (· ≤ ·) := by
  have hsorted := @List.pairwise_mergeSort Nat (fun a b => decide (a ≤ b))
    (fun a b c hab hbc => by simp only [decide_eq_true_eq] at *; omega)
    (fun a b => by simp only [Bool.or_eq_true, decide_eq_true_eq]; omega) indices
  exact hsorted.imp of_decide_eq_true

/-- Halving finds where ascending indices leave the bounds. -/
theorem exists_inside {ascending : List Nat} (h : ascending.Pairwise (· < ·)) (bound : Nat) :
    ∃ inside outside, ascending = inside ++ outside ∧ (∀ i ∈ inside, i < bound) ∧
      (∀ i ∈ outside, bound ≤ i) ∧
      partitionPoint (fun index => decide (index < bound)) ascending = inside.length := by
  have hsorted : Sorted (fun a b : Nat => decide (a ≤ b)) ascending :=
    h.imp fun hab => by simp [before]; omega
  obtain ⟨inside, outside, hsplit, hinside, houtside, hpoint⟩ :=
    hsorted.exists_cut (p := fun index => decide (index < bound))
      fun a b hab hb => by simp [before] at hab hb ⊢; omega
  exact ⟨inside, outside, hsplit, fun i hi => of_decide_eq_true (hinside i hi),
    fun i hi => Nat.le_of_not_lt (of_decide_eq_false (houtside i hi)), hpoint⟩

/-! ## The walk -/

variable {α : Type _}

/-- **The walk leaves out the items whose index is among those given.** -/
theorem withoutIndices_eq {indices : List Nat} {index : Nat} (h : indices.Pairwise (· < ·))
    (hfrom : ∀ i ∈ indices, index ≤ i) (items : List α) :
    withoutIndices indices index items =
      ((items.zipIdx index).filter fun entry => !indices.contains entry.2).map (·.1) := by
  fun_induction withoutIndices indices index items with
  | case1 => rfl
  | case2 index items =>
    have hall : ∀ entry ∈ items.zipIdx index, (!([] : List Nat).contains entry.2) = true :=
      fun _ _ => rfl
    rw [List.filter_eq_self.mpr hall, List.zipIdx_map_fst]
  | case3 later index item rest ih =>
    obtain ⟨hlater, hascending⟩ := List.pairwise_cons.mp h
    have hkept : (rest.zipIdx (index + 1)).filter (fun entry => !later.contains entry.2) =
        (rest.zipIdx (index + 1)).filter (fun entry => !(index :: later).contains entry.2) := by
      refine List.filter_congr fun entry hentry => ?_
      have hbehind : entry.2 ≠ index := by
        have := (List.mem_zipIdx hentry).1
        omega
      simp [hbehind]
    rw [ih hascending hlater, List.zipIdx_cons, List.filter_cons_of_neg (by simp), hkept]
  | case4 next later index item rest hnext ih =>
    have hother : ∀ i ∈ next :: later, index + 1 ≤ i := by
      have hfirst := hfrom next List.mem_cons_self
      intro i hi
      rcases List.mem_cons.mp hi with rfl | hi
      · omega
      · have := (List.pairwise_cons.mp h).1 i hi
        omega
    have hstays : (next :: later).contains index = false := by
      simp only [List.contains_eq_mem, decide_eq_false_iff_not]
      intro hmem
      have := hother index hmem
      omega
    rw [ih h hother, List.zipIdx_cons, List.filter_cons_of_pos (by rw [hstays]; rfl), List.map_cons]

/-- **Removing at indices is a filter**: what is left are the items at other indices, and the flag
tells whether an index was in bounds. -/
theorem removeIndices_eq (indices : List Nat) (items : List α) :
    removeIndices indices items =
      ((items.zipIdx.filter fun entry => !indices.contains entry.2).map (·.1),
        indices.any (· < items.length)) := by
  have hmem : ∀ i, i ∈ indices.mergeSort.eraseReps ↔ i ∈ indices := fun i => by
    rw [mem_eraseReps, List.mem_mergeSort]
  have hascending := ascending_eraseReps (ascending_mergeSort indices)
  simp only [removeIndices]
  generalize indices.mergeSort.eraseReps = ascending at *
  obtain ⟨inside, outside, rfl, hinside, houtside, hpoint⟩ :=
    exists_inside hascending items.length
  -- those outside make no difference to the items, nor to the flag
  have hwalk : ∀ entry ∈ items.zipIdx, inside.contains entry.2 = indices.contains entry.2 := by
    intro entry hentry
    have hbound : entry.2 < items.length := by
      have := (List.mem_zipIdx hentry).2.1
      omega
    have hout : entry.2 ∉ outside := fun hmem => Nat.not_le_of_lt hbound (houtside _ hmem)
    simp [List.contains_eq_mem, ← hmem, hout]
  have hany : indices.any (· < items.length) = !inside.isEmpty := by
    rw [Bool.eq_iff_iff, List.any_eq_true]
    constructor
    · rintro ⟨i, hi, hlt⟩
      rcases List.mem_append.mp ((hmem i).mpr hi) with hi | hi
      · simp [List.ne_nil_of_mem hi]
      · exact absurd (of_decide_eq_true hlt) (Nat.not_lt_of_le (houtside i hi))
    · intro hsome
      obtain ⟨i, hi⟩ := List.exists_mem_of_ne_nil inside (by simpa using hsome)
      exact ⟨i, (hmem i).mp (List.mem_append_left _ hi), decide_eq_true (hinside i hi)⟩
  have hascendingInside := (List.pairwise_append.mp hascending).1
  rw [hpoint, List.take_left, hany,
    withoutIndices_eq hascendingInside (fun _ _ => Nat.zero_le _),
    List.filter_congr fun entry hentry => by rw [hwalk entry hentry]]
  cases inside with
  | nil =>
    have hall : ∀ entry ∈ items.zipIdx, (!indices.contains entry.2) = true :=
      fun entry hentry => by rw [← hwalk entry hentry]; rfl
    simp [List.filter_eq_self.mpr hall, -List.contains_eq_mem]
  | cons i inside => rfl

end Palette.SortedItems
