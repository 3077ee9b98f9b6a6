import Palette.Proofs.Collections.Truncation
import Palette.Proofs.Menu.Calls
import Palette.Proofs.Menu.Priorities

/-!
# Menus that keep a limited number of entries

A menu with a limit cuts its list with every entry that is added and with every batch that is merged.
So entries are lost at different moments in different runs. But the listed entries are always what
comes first of all that were settled so far, one by one or in batches (`MenuMove.settled`), and it
makes no difference to cut early. If no two priorities are the same, there is one way to sort the
entries, and so it makes no difference either in which order they were settled.

Main statement: `Menu.earliest_listed`.
-/

namespace Palette

variable {ι π L : Type} [Priority π] [LawfulPriority π]

open SortedItems

/-! ## Entries with numbers -/

theorem SortOrder.same_of_atOrBefore (order : SortOrder) {a b : MenuEntry ι π}
    (hab : order.atOrBefore a b = true) (hba : order.atOrBefore b a = true) :
    Priority.same a.priority b.priority = true := by
  cases order with
  | highestFirst => exact (LawfulPriority.same_iff _ _).mpr ⟨hba, hab⟩
  | lowestFirst => exact (LawfulPriority.same_iff _ _).mpr ⟨hab, hba⟩

namespace NumberedList

variable {order : SortOrder} {items batch : List (MenuEntry ι π)} {e : MenuEntry ι π}

omit [LawfulPriority π] in
theorem append (hitems : NumberedList items) (hbatch : NumberedList batch) :
    NumberedList (items ++ batch) :=
  fun e he => (List.mem_append.mp he).elim (hitems e) (hbatch e)

theorem fst_add (hitems : NumberedList items) (he : e.IsNumbered)
    (h : Sorted order.atOrBefore items) (limit : Option Nat) :
    (add order.atOrBefore e limit items).1 =
      cut limit (stableSort order.atOrBefore (items ++ [e])) := by
  lift items to List (NumberedEntry ι π) using hitems
  lift e to NumberedEntry ι π using he
  rw [add_map, Prod.map_fst, ((sorted_map _).mp h).fst_add, ← cut_map, ← stableSort_map,
    List.map_append, List.map_singleton]

theorem fst_addAll (hitems : NumberedList items) (hbatch : NumberedList batch)
    (h : Sorted order.atOrBefore items) (limit : Option Nat) :
    (addAll order.atOrBefore batch limit items).1 =
      cut limit (stableSort order.atOrBefore (items ++ batch)) := by
  lift items to List (NumberedEntry ι π) using hitems
  lift batch to List (NumberedEntry ι π) using hbatch
  rw [addAll_map, Prod.map_fst, ((sorted_map _).mp h).fst_addAll, ← cut_map, ← stableSort_map,
    List.map_append]

omit [LawfulPriority π] in
theorem cut_stableSort (hitems : NumberedList items) (limit : Option Nat) :
    NumberedList (cut limit (stableSort order.atOrBefore items)) := by
  have hmem : ∀ e ∈ stableSort order.atOrBefore items, e.IsNumbered :=
    fun e he => hitems e ((stableSort_perm _ items).mem_iff.mp he)
  cases limit with
  | none => exact hmem
  | some limit => exact fun e he => hmem e (List.mem_of_mem_take he)

theorem sorted_cut (hitems : NumberedList items) (limit : Option Nat) :
    Sorted order.atOrBefore (cut limit (stableSort order.atOrBefore items)) := by
  lift items to List (NumberedEntry ι π) using hitems
  rw [stableSort_map, cut_map]
  exact (sorted_map _).mpr ((sorted_stableSort items).cut limit)

theorem cut_stableSort_append (hitems : NumberedList items) (hbatch : NumberedList batch)
    (limit : Option Nat) :
    cut limit (stableSort order.atOrBefore
        (cut limit (stableSort order.atOrBefore items) ++ batch)) =
      cut limit (stableSort order.atOrBefore (items ++ batch)) := by
  lift items to List (NumberedEntry ι π) using hitems
  lift batch to List (NumberedEntry ι π) using hbatch
  simp only [stableSort_map, cut_map, ← List.map_append, SortedItems.cut_stableSort_append]

theorem stableSort_eq_mergeSort (hitems : NumberedList items) :
    stableSort order.atOrBefore items = items.mergeSort order.atOrBefore := by
  lift items to List (NumberedEntry ι π) using hitems
  rw [stableSort_map, SortedItems.stableSort_eq_mergeSort]
  refine List.map_mergeSort fun a _ b _ => ?_
  exact Bool.eq_iff_iff.mpr ((Bool.not_eq_true' _).to_iff.trans (order.not_before_iff a.2 b.2))

/-- If no two priorities are the same, there is one way to sort the entries. -/
theorem stableSort_perm_congr (hitems : NumberedList items) {items' : List (MenuEntry ι π)}
    (hperm : items'.Perm items)
    (hdistinct : items.Pairwise fun a b => Priority.same a.priority b.priority = false) :
    stableSort order.atOrBefore items' = stableSort order.atOrBefore items := by
  have hitems' : NumberedList items' := fun e he => hitems e (hperm.mem_iff.mp he)
  have hsame : ∀ a ∈ items, ∀ b ∈ items,
      order.atOrBefore a b = true → order.atOrBefore b a = true → a = b := by
    refine List.Pairwise.forall_of_forall_of_flip (fun _ _ _ _ => rfl) ?_ ?_
    · exact hdistinct.imp fun hne hab hba => by simp [order.same_of_atOrBefore hab hba] at hne
    · exact hdistinct.imp fun hne hba hab => by simp [order.same_of_atOrBefore hab hba] at hne
  have hsorted : Sorted order.atOrBefore (stableSort order.atOrBefore items) :=
    hitems.sorted_cut none
  have hsorted' : Sorted order.atOrBefore (stableSort order.atOrBefore items') :=
    hitems'.sorted_cut none
  have hmem := fun e => (stableSort_perm order.atOrBefore items).mem_iff (a := e)
  refine List.Perm.eq_of_pairwise (fun a b ha hb hab hba => ?_) hsorted' hsorted
    ((stableSort_perm _ _).trans (hperm.trans (stableSort_perm _ _).symm))
  have ha : a ∈ items := hperm.mem_iff.mp ((stableSort_perm _ items').mem_iff.mp ha)
  have hb : b ∈ items := (stableSort_perm _ items).mem_iff.mp hb
  have hna := hitems a ha
  have hnb := hitems b hb
  exact hsame a ha b hb ((order.not_before_iff hna hnb).mp hab)
    ((order.not_before_iff hnb hna).mp hba)

end NumberedList

/-! ## Calls that add entries -/

namespace MenuCall

/-- Whatever a call adds has a priority of its own, and it removes nothing. -/
def isPrioritized : MenuCall ι π L → Bool
  | addItem .. | addItemAt .. | remove _ => false
  | _ => true

/-- The entry with a priority that a call adds. -/
def entry? : MenuCall ι π L → Option (MenuEntry ι π)
  | addEntry _ _ entry => some entry
  | _ => none

omit [LawfulPriority π] in
theorem put?_eq_entry? [BEq ι] {call : MenuCall ι π L} (h : call.isPrioritized = true)
    (m : Menu ι π L) : call.put? m = call.entry? ∧ call.removal? = none := by
  cases call <;> first | exact ⟨rfl, rfl⟩ | cases h

end MenuCall

variable [BEq ι]

/-- **What is listed stays what comes first of the entries that were settled.** -/
theorem MenuMove.settled {order : SortOrder} {limit : Option Nat}
    {listed pending listed' pending' settled : List (MenuEntry ι π)}
    {put : Option (MenuEntry ι π)}
    (hmove : MenuMove order.atOrBefore limit listed pending put none listed' pending')
    (hlisted : listed = cut limit (stableSort order.atOrBefore settled))
    (hsettled : NumberedList settled) (hpending : NumberedList pending)
    (hput : NumberedList put.toList) :
    ∃ settled', listed' = cut limit (stableSort order.atOrBefore settled') ∧
      (settled' ++ pending').Perm (settled ++ pending ++ put.toList) := by
  have hsorted : Sorted order.atOrBefore listed := hlisted ▸ hsettled.sorted_cut limit
  have hnumbered : NumberedList listed := hlisted ▸ hsettled.cut_stableSort limit
  have hmerged (batch : List (MenuEntry ι π)) (hbatch : NumberedList batch) :
      (addAll order.atOrBefore batch limit listed).1 =
        cut limit (stableSort order.atOrBefore (settled ++ batch)) := by
    rw [hnumbered.fst_addAll hbatch hsorted, hlisted, hsettled.cut_stableSort_append hbatch]
  cases hmove with
  | rest => exact ⟨settled, hlisted, by simp⟩
  | flush => exact ⟨settled ++ pending, hmerged pending hpending, by simp⟩
  | list e =>
    have he : NumberedList [e] := hput
    refine ⟨settled ++ [e], ?_, ?_⟩
    · rw [hnumbered.fst_add (hput e List.mem_cons_self) hsorted, hlisted,
        hsettled.cut_stableSort_append he]
    · rw [List.append_assoc, List.append_assoc]
      exact List.perm_append_comm.append_left settled
  | wait e => exact ⟨settled, hlisted, by simp⟩
  | merge e => exact ⟨settled ++ (pending ++ [e]), hmerged _ (hpending.append hput), by simp⟩

namespace Menu

/-- What is listed comes first of the entries that were settled, and the others are pending. -/
theorem exists_settled (config : MenuConfig) (calls : List (MenuCall ι π L))
    (hcalls : ∀ call ∈ calls, call.isPrioritized = true)
    (hnumbered : NumberedList (calls.filterMap MenuCall.entry?)) :
    ∃ settled, (reached config calls).listed =
        cut config.maxItems (stableSort config.order.atOrBefore settled) ∧
      (settled ++ (reached config calls).pending).Perm (calls.filterMap MenuCall.entry?) := by
  induction calls using List.reverseRecOn with
  | nil =>
    refine ⟨[], ?_, .refl _⟩
    cases config.maxItems with
    | none => rfl
    | some limit => exact List.take_nil.symm
  | append_singleton calls call ih =>
    rw [List.filterMap_append] at hnumbered ⊢
    have hbefore : NumberedList (calls.filterMap MenuCall.entry?) :=
      fun e he => hnumbered e (List.mem_append_left _ he)
    obtain ⟨settled, hlisted, hperm⟩ := ih (fun c hc => hcalls c (List.mem_append_left _ hc)) hbefore
    have hall : NumberedList (settled ++ (reached config calls).pending) :=
      fun e he => hbefore e (hperm.mem_iff.mp he)
    obtain ⟨hput, hremoval⟩ := MenuCall.put?_eq_entry? (hcalls call (by simp)) (reached config calls)
    have hadded : [call].filterMap MenuCall.entry? = call.entry?.toList := by
      cases hentry : call.entry? <;> simp [hentry]
    have hmove := ((reached config calls).follows_step call).entries
    rw [← reached_concat, precedes_reached, config_reached, hput, hremoval] at hmove
    rw [hadded] at hnumbered ⊢
    obtain ⟨settled', hlisted', hperm'⟩ := hmove.settled hlisted
      (fun e he => hall e (List.mem_append_left _ he))
      (fun e he => hall e (List.mem_append_right _ he))
      (fun e he => hnumbered e (List.mem_append_right _ he))
    exact ⟨settled', hlisted', hperm'.trans (hperm.append_right _)⟩

/-- **Which entries are kept does not depend on when and how they arrive.** If entries with
different priorities are added, in whatever order and batches, then a menu with a limit lists after a
last flush the first ones of all that were added, up to the limit and in the order of sorting. -/
theorem earliest_listed {config : MenuConfig} {limit : Nat} (hlimit : config.maxItems = some limit)
    {calls : List (MenuCall ι π L)} (hcalls : ∀ call ∈ calls, call.isPrioritized = true)
    {entries : List (MenuEntry ι π)} (hentries : (calls.filterMap MenuCall.entry?).Perm entries)
    (hnumbered : ∀ e ∈ entries, e.IsNumbered)
    (hdistinct : entries.Pairwise fun a b => Priority.same a.priority b.priority = false) :
    (reached config calls).flush.state.listed =
      (entries.mergeSort config.order.atOrBefore).take limit := by
  have hflushed : (calls ++ [MenuCall.flush]).filterMap MenuCall.entry? =
      calls.filterMap MenuCall.entry? := by
    simp [MenuCall.entry?]
  obtain ⟨settled, hlisted, hperm⟩ := exists_settled config (calls ++ [.flush])
    (by simpa [or_imp, forall_and, MenuCall.isPrioritized] using hcalls)
    (fun e he => hnumbered e (hentries.mem_iff.mp (hflushed ▸ he)))
  rw [reached_concat] at hlisted hperm
  have hpending : ((reached config calls).step .flush).pending = [] := pending_flush _
  rw [hpending, List.append_nil, hflushed] at hperm
  have hsorted : stableSort config.order.atOrBefore settled =
      stableSort config.order.atOrBefore entries :=
    NumberedList.stableSort_perm_congr hnumbered (hperm.trans hentries) hdistinct
  rwa [hsorted, NumberedList.stableSort_eq_mergeSort hnumbered, hlimit] at hlisted

end Menu

/-- Five entries, of which the highest two or the lowest two are kept. -/
theorem Menu.earliest_listed_two :
    let entries : List (MenuEntry String Float) :=
      [⟨1 / 0, "b"⟩, ⟨-1 / 0, "e"⟩, ⟨1e5, "a"⟩, ⟨-3, "c"⟩, ⟨2.5, "d"⟩]
    let highest : MenuConfig := ⟨100, some 2, .highestFirst⟩
    let lowest : MenuConfig := ⟨100, some 2, .lowestFirst⟩
    let calls : List (MenuCall String Float Unit) :=
      [.addEntry true true ⟨2.5, "d"⟩, .addEntry true false ⟨-3, "c"⟩, .readCursor,
        .addEntry true false ⟨1e5, "a"⟩, .addEntry false true ⟨-1 / 0, "e"⟩,
        .addEntry true true ⟨1 / 0, "b"⟩, .timerDue 1]
    ((reached highest calls).flush.state.listed =
        (entries.mergeSort highest.order.atOrBefore).take 2 ∧
      (reached highest calls).flush.state.listed.map (·.item) = ["b", "a"]) ∧
    ((reached lowest calls).flush.state.listed =
        (entries.mergeSort lowest.order.atOrBefore).take 2 ∧
      (reached lowest calls).flush.state.listed.map (·.item) = ["e", "c"]) := by
  intro entries highest lowest calls
  have hcalls : ∀ call ∈ calls, call.isPrioritized = true := by decide
  have hentries : (calls.filterMap MenuCall.entry?).Perm entries := List.reverse_perm entries
  have hnumbered : ∀ e ∈ entries, e.IsNumbered := by decide +kernel
  have hdistinct : entries.Pairwise fun a b => Priority.same a.priority b.priority = false := by
    decide +kernel
  refine ⟨⟨?_, by decide +kernel⟩, ⟨?_, by decide +kernel⟩⟩
  · exact earliest_listed rfl hcalls hentries hnumbered hdistinct
  · exact earliest_listed rfl hcalls hentries hnumbered hdistinct

end Palette
