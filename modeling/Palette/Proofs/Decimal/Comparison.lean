import Mathlib.Algebra.Order.Ring.Int
import Mathlib.Data.Prod.Lex

/-!
# How floating-point numbers compare

What is no number compares with nothing, not even with itself. All others stand in one line, both
zeros at one place: `rank` gives that place, first by sign and kind, then by exponent, then by
significand, which is enough since significands are as long as they can be. So one number is at most
another if its rank is, and they are the same if the ranks are.

Main statements: `le_iff_rank`, `beq_iff_rank`.
-/

namespace Palette.Decimal

open Float.Model

/-- The place in the order of numbers. -/
def rank : UnpackedFloat → ℤ ×ₗ ℤ ×ₗ ℤ
  | .infinity .negative => toLex (-2, toLex (0, 0))
  | .finite .negative significand exponent _ => toLex (-1, toLex (-exponent, -significand))
  | .zero _ => toLex (0, toLex (0, 0))
  | .finite .positive significand exponent _ => toLex (1, toLex (exponent, significand))
  | .infinity .positive => toLex (2, toLex (0, 0))
  | .notANumber => toLex (3, toLex (0, 0))

/-- The parts of a floating-point number make a number. -/
def IsNumber (x : Float) : Prop := x.toModel.unpack ≠ .notANumber

/-- The place of a floating-point number. -/
def rankOf (x : Float) : ℤ ×ₗ ℤ ×ₗ ℤ := rank x.toModel.unpack

theorem isLE_compare_then (e e' : ℤ) (m m' : ℕ) :
    ((compare e e').then (compare m m')).isLE = true ↔ e < e' ∨ e = e' ∧ m ≤ m' := by
  rcases lt_trichotomy e e' with h | h | h
  · simp [Int.compare_eq_lt.mpr h, h]
  · simp [h, Std.isLE_compare]
  · simp [Int.compare_eq_gt.mpr h, h.not_gt, h.ne']

theorem isGE_compare_then (e e' : ℤ) (m m' : ℕ) :
    ((compare e e').then (compare m m')).isGE = true ↔ e' < e ∨ e = e' ∧ m' ≤ m := by
  rcases lt_trichotomy e e' with h | h | h
  · simp [Int.compare_eq_lt.mpr h, h.not_gt, h.ne]
  · simp [h, Std.isGE_compare]
  · simp [Int.compare_eq_gt.mpr h, h]

section

variable {a b : UnpackedFloat} (ha : a ≠ .notANumber) (hb : b ≠ .notANumber)

include ha hb

theorem isLE_compare_iff : (a.compare b).any (·.isLE) = true ↔ rank a ≤ rank b := by
  rcases a with (_ | _) | _ | _ | ⟨_ | _, m, e, hm⟩ <;>
    rcases b with (_ | _) | _ | _ | ⟨_ | _, m', e', hm'⟩ <;> try contradiction
  all_goals
    clear ha hb
    dsimp only [UnpackedFloat.compare, rank]
    simp [Prod.Lex.toLex_le_toLex, isLE_compare_then, isGE_compare_then]
  -- what is left are infinite ones on both sides
  all_goals rfl

theorem compare_eq_iff : (a.compare b == some .eq) = true ↔ rank a = rank b := by
  rcases a with (_ | _) | _ | _ | ⟨_ | _, m, e, hm⟩ <;>
    rcases b with (_ | _) | _ | _ | ⟨_ | _, m', e', hm'⟩ <;> try contradiction
  all_goals
    clear ha hb
    dsimp only [UnpackedFloat.compare, rank]
    simp
  all_goals rfl

omit ha hb in
theorem compare_eq_none (h : ¬ (a ≠ .notANumber ∧ b ≠ .notANumber)) : a.compare b = none := by
  rcases not_and_or.mp h with ha | hb
  · rw [not_not.mp ha]
    rfl
  · rw [not_not.mp hb]
    cases a <;> rfl

end

/-- **Numbers compare by rank.** -/
theorem le_iff_rank (x y : Float) : x ≤ y ↔ IsNumber x ∧ IsNumber y ∧ rankOf x ≤ rankOf y := by
  have hle : x ≤ y ↔ (x.toModel.unpack.compare y.toModel.unpack).any (·.isLE) = true :=
    decide_eq_true_iff
  rw [hle, ← and_assoc]
  by_cases h : IsNumber x ∧ IsNumber y
  · exact (isLE_compare_iff h.1 h.2).trans (and_iff_right h).symm
  · rw [compare_eq_none h]
    exact iff_of_false Bool.false_ne_true fun hxy => h hxy.1

/-- **Numbers are the same if their ranks are.** -/
theorem beq_iff_rank (x y : Float) :
    (x == y) = true ↔ IsNumber x ∧ IsNumber y ∧ rankOf x = rankOf y := by
  have hbeq : (x == y) = (x.toModel.unpack.compare y.toModel.unpack == some .eq) := rfl
  rw [hbeq, ← and_assoc]
  by_cases h : IsNumber x ∧ IsNumber y
  · exact (compare_eq_iff h.1 h.2).trans (and_iff_right h).symm
  · rw [compare_eq_none h]
    exact iff_of_false Bool.false_ne_true fun hxy => h hxy.1

end Palette.Decimal
