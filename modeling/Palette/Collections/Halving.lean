/-!
# Search by halving

`partitionPoint p xs` is the number of leading elements that satisfy `p`, for a list in which
all elements that do come before all that do not. It looks at one element per halving of the
part still in question, so it needs no more probes than the length has binary digits.

## Termination

The part in question keeps at least one element and loses half of them at each step.

Main statement: on such a list the answer is the length of the satisfying part
(`partitionPoint_eq`).
-/

namespace Palette

variable {α : Type _}

/-- Whether there is an element at `i`, and it satisfies `p`. -/
def probe (p : α → Bool) (xs : List α) (i : Nat) : Bool :=
  match xs[i]? with
  | some x => p x
  | none => false

/-- The partition point within the `size` elements from `base` on. -/
def partitionFrom (p : α → Bool) (xs : List α) (base size : Nat) : Nat :=
  if 1 < size then
    partitionFrom p xs (if probe p xs (base + size / 2) then base + size / 2 else base)
      (size - size / 2)
  else if probe p xs base then base + 1 else base
termination_by size

/-- The index of the first element that does not satisfy `p`, found by halving. -/
def partitionPoint (p : α → Bool) (xs : List α) : Nat :=
  if xs.isEmpty then 0 else partitionFrom p xs 0 xs.length

theorem partitionFrom_le (p : α → Bool) (xs : List α) (base size : Nat) (hpos : 0 < size) :
    partitionFrom p xs base size ≤ base + size := by
  induction size using Nat.strongRecOn generalizing base with
  | _ size ih =>
    rw [partitionFrom]
    split
    · next h1 =>
      have hrest := ih (size - size / 2) (by omega)
        (if probe p xs (base + size / 2) then base + size / 2 else base) (by omega)
      have hbase : (if probe p xs (base + size / 2) then base + size / 2 else base) ≤
          base + size / 2 := by split <;> omega
      omega
    · split <;> omega

/-- Whatever `p` is, the point lies in the list or at its end. -/
theorem partitionPoint_le_length (p : α → Bool) (xs : List α) :
    partitionPoint p xs ≤ xs.length := by
  cases xs with
  | nil => exact Nat.le_refl 0
  | cons x xs =>
    have hle := partitionFrom_le p (x :: xs) 0 (x :: xs).length (Nat.succ_pos _)
    rwa [Nat.zero_add] at hle

/-- Halving closes in on a point that separates satisfying from failing positions. -/
theorem partitionFrom_eq {p : α → Bool} {xs : List α} {n : Nat}
    (hlt : ∀ i, i < n → probe p xs i = true) (hge : ∀ i, n ≤ i → probe p xs i = false)
    (base size : Nat) (hpos : 0 < size) (hlo : base ≤ n) (hhi : n ≤ base + size) :
    partitionFrom p xs base size = n := by
  induction size using Nat.strongRecOn generalizing base with
  | _ size ih =>
    rw [partitionFrom]
    split
    · next h1 =>
      cases hp : probe p xs (base + size / 2) with
      | true =>
        have hmid : base + size / 2 < n := by
          apply Nat.lt_of_not_le
          intro hle
          simp [hge _ hle] at hp
        simp only [if_true]
        exact ih _ (by omega) _ (by omega) (by omega) (by omega)
      | false =>
        have hmid : n ≤ base + size / 2 := by
          apply Nat.le_of_not_lt
          intro hl
          simp [hlt _ hl] at hp
        simp only [Bool.false_eq_true, if_false]
        exact ih _ (by omega) _ (by omega) (by omega) (by omega)
    · next h1 =>
      have hs : size = 1 := by omega
      subst hs
      split
      · next hp =>
        have : base < n := by
          apply Nat.lt_of_not_le
          intro hle
          simp [hge _ hle] at hp
        omega
      · next hp =>
        have : ¬ base < n := fun hl => hp (hlt _ hl)
        omega

/-- On a list whose satisfying elements come first, the point is their number. -/
theorem partitionPoint_eq {p : α → Bool} {front back : List α}
    (hfront : ∀ x ∈ front, p x = true) (hback : ∀ x ∈ back, p x = false) :
    partitionPoint p (front ++ back) = front.length := by
  unfold partitionPoint
  have hlt : ∀ i, i < front.length → probe p (front ++ back) i = true := by
    intro i hi
    simp [probe, List.getElem?_append_left hi, hi, hfront]
  have hge : ∀ i, front.length ≤ i → probe p (front ++ back) i = false := by
    intro i hi
    unfold probe
    rw [List.getElem?_append_right hi]
    split
    · next x hx => exact hback x (List.mem_of_getElem? hx)
    · rfl
  split
  · next he =>
    simp only [List.isEmpty_iff, List.append_eq_nil_iff] at he
    simp [he.1]
  · next he =>
    have hpos : 0 < (front ++ back).length := by
      cases hfb : front ++ back with
      | nil => simp [hfb] at he
      | cons _ _ => simp
    refine partitionFrom_eq hlt hge 0 _ hpos (Nat.zero_le _) ?_
    simp

end Palette
