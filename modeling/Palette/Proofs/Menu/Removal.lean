import Palette.Proofs.Menu.Sorted

/-!
# Removals from batches

What is to be removed may be listed or still pending. Of the listed entries the first that is named
goes, of the pending ones all go. So what is listed in the end depends on whether the batch is
flushed before or after, and it does so just when a pending entry is named that is not the only one
in the menu: then all pending ones that are named have gone if they were not yet flushed, and only
the first of all if they were. If none is pending, the one that goes is listed, and batches can be
merged around it. If there is but one, then taking out the first and taking out all is the same.

The answer is the same either way. That takes priorities that are numbers: an entry without one is
removed while it is pending and not found any more once it is listed.

Main statement: `Menu.remove_flush_comm`.
-/

namespace Palette

open SortedItems

variable {ι π L : Type} [BEq ι] [Priority π]

namespace Menu

/-- Removes an item or an entry and then flushes; the result is that of the removal. -/
def removeThenFlush (m : Menu ι π L) (r : Removal ι π) : Op ι π L Bool :=
  (m.remove r).andThen fun m removed => m.flush.returning fun _ => removed

/-- Flushes and then removes an item or an entry. -/
def flushThenRemove (m : Menu ι π L) (r : Removal ι π) : Op ι π L Bool :=
  m.flush.andThen fun m _ => m.remove r

omit [BEq ι] [Priority π] in
/-- If an entry is named, erasing the first one leaves one less. -/
theorem countP_eraseP (names : MenuEntry ι π → Bool) (entries : List (MenuEntry ι π)) :
    (entries.eraseP names).countP names = entries.countP names - 1 := by
  induction entries with
  | nil => rfl
  | cons e rest ih =>
    cases he : names e with
    | true => rw [List.eraseP_cons_of_pos he, List.countP_cons_of_pos he, Nat.add_sub_cancel]
    | false =>
      have he : ¬ names e = true := Bool.eq_false_iff.mp he
      rw [List.eraseP_cons_of_neg he, List.countP_cons_of_neg he, List.countP_cons_of_neg he, ih]

variable [LawfulBEq ι] [LawfulPriority π] {m : Menu ι π L} {order : SortOrder}

/-! ## One menu -/

section

variable (hlimit : m.config.maxItems = none) (hprecedes : m.entries.precedes = order.atOrBefore)
  (hsorted : Sorted order.atOrBefore m.listed) (hlisted : NumberedList m.listed)
  (hpending : NumberedList m.pending)

include hlimit hprecedes hsorted hlisted hpending

theorem result_remove_flush (r : Removal ι π) :
    (m.removeThenFlush r).result = (m.flushThenRemove r).result := by
  obtain ⟨hflush, hsorted', hnumbered', hprecedes'⟩ :=
    flushed_sorted hlimit hprecedes hsorted hlisted hpending
  calc (m.remove r).result
    _ = (m.listed ++ m.pending).any r.names :=
      result_remove_sorted hsorted hlisted hprecedes r
    _ = (merged order.atOrBefore m.listed m.pending).any r.names :=
      (merged_perm _ _ _).symm.any_eq
    _ = (m.flush.state.remove r).result := by
      rw [result_remove_sorted hsorted' hnumbered' hprecedes', pending_flush, List.append_nil,
        hflush]

omit hpending in
theorem listed_removeThenFlush (r : Removal ι π) :
    (m.removeThenFlush r).state.listed =
      merged order.atOrBefore (m.listed.eraseP r.names) (m.pending.filter (!r.names ·)) := by
  have hfollows := m.follows_remove r
  show (m.remove r).state.flush.state.listed = _
  rw [listed_flush (by rw [hfollows.config, hlimit]), pending_remove,
    listed_remove_sorted hsorted hlisted hprecedes, hfollows.precedes, hprecedes]

theorem listed_flushThenRemove (r : Removal ι π) :
    (m.flushThenRemove r).state.listed =
      (merged order.atOrBefore m.listed m.pending).eraseP r.names := by
  obtain ⟨hflush, hsorted', hnumbered', hprecedes'⟩ :=
    flushed_sorted hlimit hprecedes hsorted hlisted hpending
  show (m.flush.state.remove r).state.listed = _
  rw [listed_remove_sorted hsorted' hnumbered' hprecedes', hflush]

theorem listed_remove_flush {r : Removal ι π}
    (hfew : (∀ e ∈ m.pending, r.names e = false) ∨ (m.listed ++ m.pending).countP r.names ≤ 1) :
    (m.removeThenFlush r).state.listed = (m.flushThenRemove r).state.listed := by
  calc (m.removeThenFlush r).state.listed
    _ = merged order.atOrBefore (m.listed.eraseP r.names) (m.pending.filter (!r.names ·)) :=
      listed_removeThenFlush hlimit hprecedes hsorted hlisted r
    _ = (merged order.atOrBefore m.listed m.pending).eraseP r.names := by
      rcases hfew with hnone | hone
      · rw [List.filter_eq_self.mpr fun e he => by rw [hnone e he, Bool.not_false],
          hlisted.eraseP_merged hpending hsorted hnone]
      · have hmerged : (merged order.atOrBefore m.listed m.pending).countP r.names ≤ 1 :=
          ((merged_perm _ _ _).countP_eq _).le.trans hone
        have hold : m.listed.countP r.names ≤ 1 := by
          rw [List.countP_append] at hone
          omega
        rw [eraseP_eq_filter hold, eraseP_eq_filter hmerged,
          hlisted.filter_merged hpending hsorted]
    _ = (m.flushThenRemove r).state.listed :=
      (listed_flushThenRemove hlimit hprecedes hsorted hlisted hpending r).symm

/-- If what is listed is the same, then so is the number of entries left that are named. -/
theorem few_of_listed_eq {r : Removal ι π}
    (h : (m.removeThenFlush r).state.listed = (m.flushThenRemove r).state.listed) :
    (∀ e ∈ m.pending, r.names e = false) ∨ (m.listed ++ m.pending).countP r.names ≤ 1 := by
  have hleft := congrArg (·.countP r.names) h
  have hkept : (m.pending.filter (!r.names ·)).countP r.names = 0 :=
    List.countP_eq_zero.mpr fun e he => by simpa using (List.mem_filter.mp he).2
  simp only [listed_removeThenFlush hlimit hprecedes hsorted hlisted,
    listed_flushThenRemove hlimit hprecedes hsorted hlisted hpending, (merged_perm _ _ _).countP_eq,
    countP_eraseP, List.countP_append, hkept] at hleft
  rw [List.countP_append]
  by_cases hnone : m.pending.countP r.names = 0
  · exact .inl fun e he => by simpa using List.countP_eq_zero.mp hnone e he
  · exact .inr (by omega)

end

/-! ## Runs -/

/-- **When removal does not depend on whether a batch is flushed before or after.** If all
priorities are numbers, the answer is the same. What is listed then is the same just when no pending
entry is named, or not more than one entry in the whole menu. -/
theorem remove_flush_comm {config : MenuConfig} (hlimit : config.maxItems = none)
    (calls : List (MenuCall ι π L)) (r : Removal ι π) :
    let m : Menu ι π L := reached config calls
    (∀ e ∈ m.listed ++ m.pending, e.IsNumbered) →
      (m.removeThenFlush r).result = (m.flushThenRemove r).result ∧
        ((m.removeThenFlush r).state.listed = (m.flushThenRemove r).state.listed ↔
          (∀ e ∈ m.pending, r.names e = false) ∨
            (m.listed ++ m.pending).countP r.names ≤ 1) := by
  intro m hnumbered
  have hprecedes : m.entries.precedes = config.order.atOrBefore := precedes_reached config calls
  have hconfig : m.config.maxItems = none := by rw [config_reached, hlimit]
  have hlisted : NumberedList m.listed := fun e he => hnumbered e (List.mem_append_left _ he)
  have hpending : NumberedList m.pending := fun e he => hnumbered e (List.mem_append_right _ he)
  have hsorted : Sorted config.order.atOrBefore m.listed := sorted_reached hlimit calls hlisted
  exact ⟨result_remove_flush hconfig hprecedes hsorted hlisted hpending r,
    few_of_listed_eq hconfig hprecedes hsorted hlisted hpending,
    listed_remove_flush hconfig hprecedes hsorted hlisted hpending⟩

end Menu

/-- Ties in the list and in the batch, and an item that is in the list twice. -/
theorem Menu.remove_flush_comm_ties :
    let calls : List (MenuCall String Float Unit) :=
      [.addItem true false "x", .addEntry true false ⟨1e5, "x"⟩, .addEntry true true ⟨1e5, "y"⟩,
        .addItem true true "z"]
    let m : Menu String Float Unit := reached .standard calls
    (m.removeThenFlush (.item "x")).state.listed = (m.flushThenRemove (.item "x")).state.listed ∧
      (m.flushThenRemove (.item "x")).state.listed.map (·.item) = ["x", "y", "z"] ∧
      (m.removeThenFlush (.item "y")).state.listed =
        (m.flushThenRemove (.item "y")).state.listed ∧
      (m.flushThenRemove (.item "y")).state.listed.map (·.item) = ["x", "x", "z"] := by
  intro calls m
  have hnumbered : ∀ e ∈ m.listed ++ m.pending, e.IsNumbered := by decide +kernel
  have hlimit : MenuConfig.standard.maxItems = none := rfl
  refine ⟨?_, by decide +kernel, ?_, by decide +kernel⟩
  · exact (remove_flush_comm hlimit calls _ hnumbered).2.mpr (.inl (by decide +kernel))
  · exact (remove_flush_comm hlimit calls _ hnumbered).2.mpr (.inr (by decide +kernel))

/-- With an item twice in the batch, it makes a difference to the list; with a priority that is no
number, to the answer. -/
theorem Menu.remove_flush_differ :
    let infinite : Float := 1 / 0
    let twice : Menu String Float Unit :=
      reached .standard [.addItem true true "x", .addItem true true "x"]
    let undefined : Menu String Float Unit :=
      reached .standard [.addEntry true false ⟨infinite, "a"⟩,
        .addEntry true false ⟨-infinite, "b"⟩, .addItemAt true true "c" 1]
    ((twice.removeThenFlush (.item "x")).state.listed.map (·.item) = [] ∧
        (twice.flushThenRemove (.item "x")).state.listed.map (·.item) = ["x"]) ∧
      ((undefined.removeThenFlush (.item "c")).result = true ∧
        (undefined.flushThenRemove (.item "c")).result = false) := by
  decide +kernel

end Palette
