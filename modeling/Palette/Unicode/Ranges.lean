/-!
# Tables of code points

A property of characters is kept as a list of inclusive ranges of code points, in increasing
order. Membership walks the list and stops at the first range that starts after the code point,
so a table answers for ASCII text within its first few entries.

`ofUnsorted` puts ranges in order and joins those that touch, and `gaps` lists what lies between
them, so tables can be combined.
-/

namespace Palette.Unicode

/-- Inclusive ranges of code points, sorted and disjoint. -/
abbrev Ranges := List (Nat × Nat)

/-- Whether code point `n` lies in one of the ranges. -/
def Ranges.contains : Ranges → Nat → Bool
  | [], _ => false
  | (first, last) :: rest, n => first ≤ n && (n ≤ last || contains rest n)

/-- A code point in the table lies in one of its ranges. -/
theorem Ranges.exists_of_contains {t : Ranges} {n : Nat} (h : t.contains n = true) :
    ∃ r ∈ t, r.1 ≤ n ∧ n ≤ r.2 := by
  induction t with
  | nil => simp [contains] at h
  | cons r rest ih =>
    simp only [contains, Bool.and_eq_true, Bool.or_eq_true, decide_eq_true_eq] at h
    obtain ⟨hlo, hhi | hrest⟩ := h
    · exact ⟨r, List.mem_cons_self, hlo, hhi⟩
    · obtain ⟨s, hs, hb⟩ := ih hrest
      exact ⟨s, List.mem_cons_of_mem _ hs, hb⟩

/-- Joins `r` with the sorted ranges behind it as far as they touch. -/
def Ranges.joinFrom (r : Nat × Nat) : Ranges → Ranges
  | [] => [r]
  | s :: rest =>
    if s.1 ≤ r.2 + 1 then joinFrom (r.1, max r.2 s.2) rest else r :: joinFrom s rest

/-- The code points of ranges in any order, as a table. -/
def Ranges.ofUnsorted (ranges : List (Nat × Nat)) : Ranges :=
  match ranges.mergeSort fun r s => r.1 ≤ s.1 with
  | [] => []
  | r :: rest => joinFrom r rest

/-- The code points from `first` on that are not in the table. -/
def Ranges.gaps (first : Nat) : Ranges → Ranges
  | [] => if first ≤ 0x10FFFF then [(first, 0x10FFFF)] else []
  | (a, b) :: rest => (if first < a then [(first, a - 1)] else []) ++ gaps (b + 1) rest

end Palette.Unicode
