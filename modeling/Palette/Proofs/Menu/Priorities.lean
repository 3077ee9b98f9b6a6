import Mathlib.Algebra.Order.Ring.Rat
import Mathlib.Data.Set.List
import Palette.Menu.Entry
import Palette.Proofs.Collections.Finding
import Palette.Proofs.Collections.Images
import Palette.Proofs.Decimal.Comparison

/-!
# Numbers as priorities

Priorities compare as numbers do, apart from those that are not numbers and compare with nothing
(`LawfulPriority`). Floating-point numbers do so, and so do rational ones, with which nothing is
rounded.

Entries with numbers for priorities are in a strict weak order, whichever way they are sorted. The
theory of sorted lists applies to lists of such entries: it is carried over from the type of all of
them, `NumberedEntry`, of which these lists are images.

Main statements: `NumberedList.sorted_add`, `NumberedList.sorted_merged`, `NumberedList.remove_eq`.
-/

namespace Palette

open SortedItems

/-- Priorities that compare as numbers do. One that is the same as itself is a number. -/
class LawfulPriority (π : Type) [Priority π] : Prop where
  same_iff (a b : π) :
    Priority.same a b = true ↔ Priority.atMost a b = true ∧ Priority.atMost b a = true
  atMost_trans {a b c : π} (hab : Priority.atMost a b = true) (hbc : Priority.atMost b c = true) :
    Priority.atMost a c = true
  atMost_total {a b : π} (ha : Priority.same a a = true) (hb : Priority.same b b = true) :
    Priority.atMost a b = true ∨ Priority.atMost b a = true

instance : LawfulPriority Float where
  same_iff a b := by
    simp only [Priority.same, Priority.atMost, decide_eq_true_eq, Decimal.beq_iff_rank,
      Decimal.le_iff_rank]
    constructor
    · rintro ⟨ha, hb, heq⟩
      exact ⟨⟨ha, hb, heq.le⟩, hb, ha, heq.ge⟩
    · rintro ⟨⟨ha, hb, hle⟩, -, -, hge⟩
      exact ⟨ha, hb, le_antisymm hle hge⟩
  atMost_trans {a b c} hab hbc := by
    simp only [Priority.atMost, decide_eq_true_eq, Decimal.le_iff_rank] at hab hbc ⊢
    exact ⟨hab.1, hbc.2.1, hab.2.2.trans hbc.2.2⟩
  atMost_total {a b} ha hb := by
    simp only [Priority.same, Priority.atMost, decide_eq_true_eq, Decimal.beq_iff_rank,
      Decimal.le_iff_rank] at ha hb ⊢
    rcases le_total (Decimal.rankOf a) (Decimal.rankOf b) with h | h
    · exact .inl ⟨ha.1, hb.1, h⟩
    · exact .inr ⟨hb.1, ha.1, h⟩

/-- Priorities that are never rounded. -/
instance : Priority ℚ where
  atMost x y := x ≤ y
  same x y := x = y
  add x y := x + y
  subtract x y := x - y
  negate x := -x
  halve x := x / 2
  initial := 100000
  step := 100000

instance : LawfulPriority ℚ where
  same_iff a b := by
    simp only [Priority.same, Priority.atMost, decide_eq_true_eq]
    exact le_antisymm_iff
  atMost_trans {a b c} hab hbc := by
    simp only [Priority.atMost, decide_eq_true_eq] at hab hbc ⊢
    exact hab.trans hbc
  atMost_total {a b} _ _ := by
    simp only [Priority.atMost, decide_eq_true_eq]
    exact le_total a b

variable {ι π : Type} [Priority π]

/-- The priority of an entry is a number. -/
def MenuEntry.IsNumbered (e : MenuEntry ι π) : Prop := Priority.same e.priority e.priority = true

instance (e : MenuEntry ι π) : Decidable e.IsNumbered :=
  inferInstanceAs (Decidable (Priority.same e.priority e.priority = true))

/-- Whether an entry sorts at or before another one. -/
def SortOrder.atOrBefore (order : SortOrder) (a b : MenuEntry ι π) : Bool :=
  order.precedes a.priority b.priority

variable [LawfulPriority π]

open LawfulPriority

namespace SortOrder

variable (order : SortOrder) {p q r : π} {a b c : MenuEntry ι π}

theorem precedes_trans (hpq : order.precedes p q = true) (hqr : order.precedes q r = true) :
    order.precedes p r = true := by
  cases order with
  | highestFirst => exact atMost_trans hqr hpq
  | lowestFirst => exact atMost_trans hpq hqr

theorem precedes_total (hp : Priority.same p p = true) (hq : Priority.same q q = true) :
    order.precedes p q = true ∨ order.precedes q p = true := by
  cases order with
  | highestFirst => exact atMost_total hq hp
  | lowestFirst => exact atMost_total hp hq

theorem atOrBefore_trans (hab : order.atOrBefore a b = true) (hbc : order.atOrBefore b c = true) :
    order.atOrBefore a c = true :=
  order.precedes_trans hab hbc

theorem atOrBefore_total (ha : a.IsNumbered) (hb : b.IsNumbered) :
    order.atOrBefore a b = true ∨ order.atOrBefore b a = true :=
  order.precedes_total ha hb

theorem not_before_iff (ha : a.IsNumbered) (hb : b.IsNumbered) :
    before order.atOrBefore b a = false ↔ order.atOrBefore a b = true := by
  have htotal := order.atOrBefore_total ha hb
  cases hab : order.atOrBefore a b <;> simp_all [before]

theorem atOrBefore_of_same (h : Priority.same a.priority b.priority = true) :
    order.atOrBefore a b = true ∧ order.atOrBefore b a = true := by
  obtain ⟨hab, hba⟩ := (same_iff _ _).mp h
  cases order with
  | highestFirst => exact ⟨hba, hab⟩
  | lowestFirst => exact ⟨hab, hba⟩

end SortOrder

/-! ## Entries with numbers -/

theorem MenuEntry.IsNumbered.of_same {a b : MenuEntry ι π}
    (h : Priority.same a.priority b.priority = true) : a.IsNumbered ∧ b.IsNumbered := by
  obtain ⟨hab, hba⟩ := (same_iff _ _).mp h
  exact ⟨(same_iff _ _).mpr ⟨atMost_trans hab hba, atMost_trans hab hba⟩,
    (same_iff _ _).mpr ⟨atMost_trans hba hab, atMost_trans hba hab⟩⟩

/-- The entries whose priorities are numbers. -/
abbrev NumberedEntry (ι π : Type) [Priority π] : Type := { e : MenuEntry ι π // e.IsNumbered }

/-- A list of such entries. -/
def NumberedList (items : List (MenuEntry ι π)) : Prop := ∀ e ∈ items, e.IsNumbered

instance (order : SortOrder) : IsStrictWeakOrder (NumberedEntry ι π) fun a b =>
    before (comparing Subtype.val order.atOrBefore) a b = true where
  irrefl a h := by simp [before] at h
  trans a b c hab hbc := by
    simp only [before, comparing, Bool.and_eq_true, Bool.not_eq_true'] at hab hbc ⊢
    refine ⟨order.atOrBefore_trans hab.1 hbc.1, Bool.eq_false_iff.mpr fun hca => ?_⟩
    have hba := order.atOrBefore_trans hbc.1 hca
    simp [hba] at hab
  incomp_trans a b c hab hbc := by
    have tied : ∀ x y : NumberedEntry ι π,
        ¬ before (comparing Subtype.val order.atOrBefore) x y = true ↔
          order.atOrBefore y.val x.val = true := fun x y =>
      Bool.eq_false_iff.symm.trans (order.not_before_iff y.2 x.2)
    simp only [tied] at hab hbc ⊢
    exact ⟨order.atOrBefore_trans hbc.1 hab.1, order.atOrBefore_trans hab.2 hbc.2⟩

namespace NumberedList

variable {order : SortOrder} {items batch : List (MenuEntry ι π)} {e : MenuEntry ι π}

theorem sorted_add (hitems : NumberedList items) (he : e.IsNumbered)
    (h : Sorted order.atOrBefore items) (limit : Option Nat) :
    Sorted order.atOrBefore (add order.atOrBefore e limit items).1 := by
  lift items to List (NumberedEntry ι π) using hitems
  lift e to NumberedEntry ι π using he
  rw [add_map]
  exact (sorted_map _).mpr (((sorted_map _).mp h).add e limit)

theorem sorted_merged (hitems : NumberedList items) (hbatch : NumberedList batch)
    (h : Sorted order.atOrBefore items) :
    Sorted order.atOrBefore (merged order.atOrBefore items batch) := by
  lift items to List (NumberedEntry ι π) using hitems
  lift batch to List (NumberedEntry ι π) using hbatch
  rw [merged_map]
  exact (sorted_map _).mpr (SortedItems.sorted_merged ((sorted_map _).mp h) batch)

theorem filter_merged (hitems : NumberedList items) (hbatch : NumberedList batch)
    (h : Sorted order.atOrBefore items) (keep : MenuEntry ι π → Bool) :
    (merged order.atOrBefore items batch).filter keep =
      merged order.atOrBefore (items.filter keep) (batch.filter keep) := by
  lift items to List (NumberedEntry ι π) using hitems
  lift batch to List (NumberedEntry ι π) using hbatch
  simp only [List.filter_map, merged_map]
  exact congrArg (List.map _) (((sorted_map _).mp h).filter_merged _ _)

theorem eraseP_merged (hitems : NumberedList items) (hbatch : NumberedList batch)
    (h : Sorted order.atOrBefore items) {leaves : MenuEntry ι π → Bool}
    (hleaves : ∀ b ∈ batch, leaves b = false) :
    (merged order.atOrBefore items batch).eraseP leaves =
      merged order.atOrBefore (items.eraseP leaves) batch := by
  lift items to List (NumberedEntry ι π) using hitems
  lift batch to List (NumberedEntry ι π) using hbatch
  simp only [List.eraseP_map, merged_map]
  refine congrArg (List.map _) (((sorted_map _).mp h).eraseP_merged fun b hb => ?_)
  exact hleaves b (List.mem_map_of_mem hb)

variable [BEq ι]

/-- The first entry that equals the one asked for is removed. What equals it is a number, and so is
this one then. -/
theorem remove_eq (hitems : NumberedList items) (h : Sorted order.atOrBefore items) :
    remove order.atOrBefore e items = (items.eraseP (· == e), items.any (· == e)) := by
  by_cases he : e.IsNumbered
  · lift items to List (NumberedEntry ι π) using hitems
    lift e to NumberedEntry ι π using he
    let _ : BEq (NumberedEntry ι π) := ⟨fun a b => a.val == b.val⟩
    have htied : ∀ a ∈ items, (a == e) = true →
        before (comparing Subtype.val order.atOrBefore) a e = false ∧
          before (comparing Subtype.val order.atOrBefore) e a = false := by
      intro a _ heq
      obtain ⟨hae, hea⟩ := order.atOrBefore_of_same (Bool.and_eq_true_iff.mp heq).1
      exact ⟨(order.not_before_iff e.2 a.2).mpr hea, (order.not_before_iff a.2 e.2).mpr hae⟩
    rw [remove_map, ((sorted_map _).mp h).remove_eq htied, List.any_map, List.eraseP_map]
    rfl
  · have hnone : items.any (· == e) = false := by
      refine List.any_eq_false.mpr fun a _ heq => he ?_
      exact (MenuEntry.IsNumbered.of_same (Bool.and_eq_true_iff.mp heq).1).2
    rw [hnone, List.eraseP_of_forall_not (List.any_eq_false.mp hnone)]
    rcases exists_of_remove order.atOrBefore e items with
      ⟨front, found, back, rfl, heq, -⟩ | hremove
    · simp [heq] at hnone
    · exact hremove

end NumberedList

end Palette
