import Mathlib.Tactic.Linarith
import Palette.Proofs.Menu.Sorted
import Palette.Proofs.Menu.Stock

/-!
# Appending to menus

An item that is added to a menu without a priority is appended: it gets one behind those of all
entries, listed and pending. If nothing is rounded, that is strictly behind them, in either
direction of sorting. So entries stand in a line in which the later added follow the earlier
(`InLine`), and merging them is putting them in the order of this line, however they were batched.
Removals leave a part of the line; that they may take its end makes no difference, for what is
appended then is still behind what is left.

Main statement: `Menu.appended_in_order`.
-/

namespace Palette

variable {ι L : Type}

open SortedItems

/-! ## Priorities behind others -/

theorem same_rat (a : ℚ) : Priority.same a a = true := by
  simp [Priority.same]

namespace SortOrder

variable (order : SortOrder) {a b : ℚ}

theorem precedes_refl_rat (a : ℚ) : order.precedes a a = true :=
  (order.precedes_total (same_rat a) (same_rat a)).elim id id

theorem precedes_last (a b : ℚ) :
    order.precedes a (order.last a b) = true ∧ order.precedes b (order.last a b) = true := by
  unfold last
  split
  · next h => exact ⟨h, order.precedes_refl_rat b⟩
  · next h =>
    exact ⟨order.precedes_refl_rat a,
      (order.precedes_total (same_rat a) (same_rat b)).resolve_left h⟩

theorem precedes_foldl_last (a : ℚ) (rest : List ℚ) :
    ∀ p ∈ a :: rest, order.precedes p (rest.foldl order.last a) = true := by
  induction rest generalizing a with
  | nil =>
    intro p hp
    obtain rfl := List.mem_singleton.mp hp
    exact order.precedes_refl_rat p
  | cons b rest ih =>
    obtain ⟨ha, hb⟩ := order.precedes_last a b
    have hlast := ih (order.last a b) _ List.mem_cons_self
    intro p hp
    rcases List.mem_cons.mp hp with rfl | hp
    · exact order.precedes_trans ha hlast
    rcases List.mem_cons.mp hp with rfl | hp
    · exact order.precedes_trans hb hlast
    · exact ih (order.last a b) p (List.mem_cons_of_mem _ hp)

/-- The next priority is strictly behind. -/
theorem precedes_next (h : order.precedes a b = true) :
    order.precedes (Priority.add b order.later) a = false := by
  rw [Bool.eq_false_iff]
  cases order <;> simp only [precedes, Priority.atMost, ne_eq, decide_eq_true_eq] at h ⊢ <;>
    simp only [later, Priority.add, Priority.negate, Priority.step] <;> linarith

theorem precedes_behind {priorities : List ℚ} {p q : ℚ} (hq : q ∈ priorities)
    (hpq : order.precedes p q = true) : order.precedes (order.behind priorities) p = false := by
  cases priorities with
  | nil => nomatch hq
  | cons a rest =>
    exact order.precedes_next (order.precedes_trans hpq (order.precedes_foldl_last a rest q hq))

end SortOrder

theorem MenuEntry.isNumbered_rat (e : MenuEntry ι ℚ) : e.IsNumbered := same_rat e.priority

/-- The last priority is behind the others. -/
theorem exists_last_priority {order : SortOrder} {entries : List (MenuEntry ι ℚ)}
    (hsorted : Sorted order.atOrBefore entries) {e : MenuEntry ι ℚ} (he : e ∈ entries) :
    ∃ q, entries.getLast?.map (·.priority) = some q ∧ order.precedes e.priority q = true := by
  rcases List.eq_nil_or_concat' entries with rfl | ⟨front, last, rfl⟩
  · cases he
  · refine ⟨last.priority, by rw [List.getLast?_concat]; rfl, ?_⟩
    rcases List.mem_append.mp he with he | he
    · have hbefore := (List.pairwise_append.mp hsorted).2.2 e he last (List.mem_singleton_self _)
      exact (order.not_before_iff e.isNumbered_rat last.isNumbered_rat).mp hbefore
    · obtain rfl := List.mem_singleton.mp he
      exact order.precedes_refl_rat _

namespace Menu

variable {m : Menu ι ℚ L} {order : SortOrder}

theorem tailPriority_behind (horder : m.config.order = order)
    (hsorted : Sorted order.atOrBefore m.listed) :
    ∀ e ∈ m.listed ++ m.pending, order.precedes m.tailPriority e.priority = false := by
  intro e he
  unfold tailPriority
  rw [horder]
  rcases List.mem_append.mp he with he | he
  · obtain ⟨q, hlast, hq⟩ := exists_last_priority hsorted he
    refine order.precedes_behind (List.mem_append_left _ ?_) hq
    exact Option.mem_toList.mpr hlast
  · have hmem : e.priority ∈ m.pending.map (·.priority) := List.mem_map_of_mem he
    cases hpending : m.pending.map (·.priority) with
    | nil =>
      rw [hpending] at hmem
      cases hmem
    | cons a rest =>
      rw [hpending] at hmem
      refine order.precedes_behind (List.mem_append_right _ ?_)
        (order.precedes_foldl_last a rest _ hmem)
      exact Option.mem_toList.mpr rfl

end Menu

/-! ## Calls that append -/

namespace MenuCall

/-- Items are added without a priority, and it is items that are removed. -/
def appends : MenuCall ι ℚ L → Bool
  | addItemAt .. | addEntry .. | remove (.entry _) => false
  | _ => true

/-- The item that a call appends. -/
def item? : MenuCall ι ℚ L → Option ι
  | addItem _ _ item => some item
  | _ => none

/-- What a call makes of the items so far. -/
def keep [BEq ι] (items : List ι) : MenuCall ι ℚ L → List ι
  | addItem _ _ item => items ++ [item]
  | remove (.item item) => items.filter (· != item)
  | _ => items

/-- The items that were added and not removed since, in the order in which they were added. -/
def survivors [BEq ι] (calls : List (MenuCall ι ℚ L)) : List ι := calls.foldl keep []

theorem survivors_concat [BEq ι] (calls : List (MenuCall ι ℚ L)) (call : MenuCall ι ℚ L) :
    survivors (calls ++ [call]) = call.keep (survivors calls) := by
  simp [survivors]

theorem survivors_sublist [BEq ι] (calls : List (MenuCall ι ℚ L)) :
    (survivors calls).Sublist (calls.filterMap item?) := by
  induction calls using List.reverseRecOn with
  | nil => exact .refl _
  | append_singleton calls call ih =>
    rw [survivors_concat, List.filterMap_append]
    cases call with
    | addItem inRuntime batch item => exact ih.append (.refl _)
    | remove r =>
      rw [show [remove r].filterMap (item? : MenuCall ι ℚ L → Option ι) = [] from rfl,
        List.append_nil]
      cases r with
      | item item => exact List.filter_sublist.trans ih
      | entry entry => exact ih
    | _ => exact ih.trans (List.sublist_append_left _ _)

end MenuCall

/-! ## The line -/

/-- The entries of a menu stand in a line, each strictly behind those in front of it, and `items`
are their items. -/
def InLine (order : SortOrder) (m : Menu ι ℚ L) (items : List ι) : Prop :=
  ∃ line : List (MenuEntry ι ℚ), line.map (·.item) = items ∧
    line.Pairwise (fun a b => order.atOrBefore b a = false) ∧
      (m.listed ++ m.pending).Perm line

namespace InLine

variable {order : SortOrder} {m m' : Menu ι ℚ L} {items : List ι}

theorem perm (h : InLine order m items) (hperm : (m'.listed ++ m'.pending).Perm
    (m.listed ++ m.pending)) : InLine order m' items := by
  obtain ⟨line, hitems, hstrict, hline⟩ := h
  exact ⟨line, hitems, hstrict, hperm.trans hline⟩

/-- No two entries of a line are tied, so there is one way to sort them. -/
theorem listed_eq (h : InLine order m items) (hpending : m.pending = [])
    (hsorted : Sorted order.atOrBefore m.listed) : m.listed.map (·.item) = items := by
  obtain ⟨line, rfl, hstrict, hperm⟩ := h
  rw [hpending, List.append_nil] at hperm
  have hsame : ∀ a ∈ line, ∀ b ∈ line,
      order.atOrBefore a b = true → order.atOrBefore b a = true → a = b := by
    refine List.Pairwise.forall_of_forall_of_flip (fun _ _ _ _ => rfl) ?_ ?_
    · exact hstrict.imp fun hba _ hba' => by simp [hba] at hba'
    · exact hstrict.imp fun hba hba' _ => by simp [hba] at hba'
  have hlisted : m.listed.Pairwise fun a b => order.atOrBefore a b = true :=
    hsorted.imp fun {a b} => (order.not_before_iff a.isNumbered_rat b.isNumbered_rat).mp
  have hline : line.Pairwise fun a b => order.atOrBefore a b = true := by
    refine hstrict.imp fun {a b} hba => ?_
    have htotal := order.atOrBefore_total a.isNumbered_rat b.isNumbered_rat
    exact htotal.resolve_right (Bool.eq_false_iff.mp hba)
  have heq : m.listed = line :=
    hperm.eq_of_pairwise (fun a b ha hb => hsame a (hperm.mem_iff.mp ha) b hb) hlisted hline
  rw [heq]

/-- An entry behind all others comes last in the line. -/
theorem concat (h : InLine order m items) {e : MenuEntry ι ℚ}
    (hbehind : ∀ a ∈ m.listed ++ m.pending, order.atOrBefore e a = false)
    (hperm : (m'.listed ++ m'.pending).Perm (e :: (m.listed ++ m.pending))) :
    InLine order m' (items ++ [e.item]) := by
  obtain ⟨line, rfl, hstrict, hline⟩ := h
  refine ⟨line ++ [e], List.map_append, ?_, ?_⟩
  · refine List.pairwise_append.mpr ⟨hstrict, List.pairwise_singleton _ _, fun a ha b hb => ?_⟩
    obtain rfl := List.mem_singleton.mp hb
    exact hbehind a (hline.mem_iff.mpr ha)
  · exact hperm.trans ((hline.cons e).trans (List.perm_append_singleton e line).symm)

theorem filter [BEq ι] (h : InLine order m items) {item : ι}
    (hperm : (m'.listed ++ m'.pending).Perm
      ((m.listed ++ m.pending).filter fun e => !e.holds item)) :
    InLine order m' (items.filter (· != item)) := by
  obtain ⟨line, rfl, hstrict, hline⟩ := h
  refine ⟨line.filter fun e => !e.holds item, ?_, hstrict.sublist List.filter_sublist,
    hperm.trans (hline.filter _)⟩
  rw [List.filter_map]
  rfl

variable [BEq ι] [LawfulBEq ι]

/-- In a line of different items at most one entry has a given one. -/
theorem countP_le (h : InLine order m items) (hdistinct : items.Nodup) (item : ι) :
    (m.listed ++ m.pending).countP (·.holds item) ≤ 1 := by
  obtain ⟨line, rfl, -, hline⟩ := h
  rw [hline.countP_eq]
  have hcount := List.nodup_iff_count_le_one.mp hdistinct item
  rwa [List.count, List.countP_map] at hcount

/-- **What an appending call makes of the line.** -/
theorem step (h : InLine order m items) (hdistinct : items.Nodup)
    (hlimit : m.config.maxItems = none) (horder : m.config.order = order)
    (hprecedes : m.entries.precedes = order.atOrBefore)
    (hsorted : Sorted order.atOrBefore m.listed) {call : MenuCall ι ℚ L}
    (hcall : call.appends = true) : InLine order (m.step call) (call.keep items) := by
  have hmove := (m.follows_step call).entries
  rw [hlimit] at hmove
  cases call with
  | addItem inRuntime batch item =>
    exact h.concat (e := ⟨m.tailPriority, item⟩) (Menu.tailPriority_behind horder hsorted)
      hmove.perm
  | remove r =>
    cases r with
    | item item =>
      have hnumbered : NumberedList m.listed := fun e _ => e.isNumbered_rat
      have hfew := h.countP_le hdistinct item
      rw [List.countP_append] at hfew
      refine h.filter (List.Perm.of_eq ?_)
      show (m.remove (.item item)).state.listed ++ (m.remove (.item item)).state.pending = _
      rw [Menu.listed_remove_sorted hsorted hnumbered hprecedes, Menu.pending_remove,
        List.filter_append]
      exact congrArg (· ++ _) (eraseP_eq_filter (Nat.le_of_add_right_le hfew))
    | entry entry => nomatch hcall
  | addItemAt | addEntry => nomatch hcall
  | _ => exact h.perm hmove.perm

end InLine

namespace Menu

open MenuCall

variable [BEq ι] [LawfulBEq ι] {config : MenuConfig}

/-- Calls that append leave the surviving items in line. -/
theorem inLine_reached (hlimit : config.maxItems = none) {calls : List (MenuCall ι ℚ L)}
    (hcalls : ∀ call ∈ calls, call.appends = true) (hdistinct : (calls.filterMap item?).Nodup) :
    InLine config.order (reached config calls) (survivors calls) := by
  induction calls using List.reverseRecOn with
  | nil => exact ⟨[], rfl, List.Pairwise.nil, .refl _⟩
  | append_singleton calls call ih =>
    rw [List.filterMap_append] at hdistinct
    have hbefore : (calls.filterMap item?).Nodup := hdistinct.of_append_left
    have hline := ih (fun c hc => hcalls c (List.mem_append_left _ hc)) hbefore
    rw [reached_concat, survivors_concat]
    exact hline.step (hbefore.sublist (survivors_sublist calls))
      (by rw [config_reached, hlimit]) (by rw [config_reached]) (precedes_reached config calls)
      (sorted_reached hlimit calls fun e _ => e.isNumbered_rat) (hcalls call (by simp))

/-- **Appending keeps the order of calls, however it is batched.** If different items are added
without priorities, and nothing is rounded, then what is read are those that survive, in the order
in which they were added. -/
theorem appended_in_order (hlimit : config.maxItems = none) (calls : List (MenuCall ι ℚ L))
    (hcalls : ∀ call ∈ calls, call.appends = true) (hdistinct : (calls.filterMap item?).Nodup) :
    (reached config calls).readItems.result = survivors calls := by
  let m : Menu ι ℚ L := reached config calls
  have hline : InLine config.order m (survivors calls) := inLine_reached hlimit hcalls hdistinct
  have hmove := m.follows_flush.entries
  rw [config_reached, hlimit] at hmove
  have hsorted := sorted_reached hlimit (calls ++ [.flush]) fun e _ => e.isNumbered_rat
  rw [reached_concat] at hsorted
  exact (hline.perm hmove.perm).listed_eq m.pending_flush hsorted

end Menu

/-- Batched and unbatched items, and the last of the list and of the batch removed. -/
theorem Menu.appended_in_order_mixed :
    let calls : List (MenuCall String ℚ Unit) :=
      [.addItem true true "a", .addItem true false "b", .readCursor, .addItem true true "c",
        .addItem true true "d", .remove (.item "d"), .addItem true false "e", .remove (.item "b"),
        .addItem false true "f", .addItem true true "g"]
    (reached .standard calls).readItems.result = ["a", "c", "e", "f", "g"] ∧
      (reached { MenuConfig.standard with order := .lowestFirst } calls).readItems.result =
        ["a", "c", "e", "f", "g"] := by
  intro calls
  have hcalls : ∀ call ∈ calls, call.appends = true := by decide
  have hdistinct : (calls.filterMap MenuCall.item?).Nodup := by decide
  exact ⟨appended_in_order rfl calls hcalls hdistinct, appended_in_order rfl calls hcalls hdistinct⟩

end Palette
