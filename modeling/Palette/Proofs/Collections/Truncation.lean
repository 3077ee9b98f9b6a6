import Palette.Proofs.Collections.Merging

/-!
# Lists cut at a limit

What a sorted list keeps of an added item or of a batch is the front of the stable sort of the old
items followed by the new ones. The stable sort is the library's: it is determined by being sorted
and by keeping the order of ties (`Sorted.eq_of_ties`), and merging keeps that order just as sorting
does.

An item that is cut off once would have been cut off later as well: as many items as the limit allows
stay in front of it, whatever is merged in. So a list may be cut early or late
(`cut_stableSort_append`), which is why only what was added, and not when, decides about what is
left.

Main statements: `stableSort_eq_mergeSort`, `Sorted.fst_add`, `Sorted.fst_addAll`,
`cut_stableSort_append`.
-/

namespace Palette.SortedItems

variable {α : Type _} {precedes : α → α → Bool} {items batch : List α}

/-- The items in front of a limit, or all of them if there is none. -/
def cut : (limit : Option Nat) → List α → List α
  | none, items => items
  | some limit, items => items.take limit

/-- Neither of two items strictly precedes the other. -/
def tied (precedes : α → α → Bool) (a b : α) : Bool :=
  !before precedes a b && !before precedes b a

theorem tied_iff {a b : α} :
    tied precedes a b = true ↔ before precedes a b = false ∧ before precedes b a = false := by
  simp [tied]

theorem tied_self (a : α) : tied precedes a a = true := by
  simp [tied, before]

theorem cut_map {β : Type _} (f : β → α) (limit : Option Nat) (items : List β) :
    cut limit (items.map f) = (cut limit items).map f := by
  cases limit with
  | none => rfl
  | some limit => exact List.map_take.symm

theorem Sorted.cut (h : Sorted precedes items) (limit : Option Nat) :
    Sorted precedes (cut limit items) := by
  cases limit with
  | none => exact h
  | some limit => exact h.sublist (List.take_sublist limit items)

/-- Old items that cannot come in front of the limit make no difference to a merge. -/
theorem mergeUpTo_take (precedes : α → α → Bool) (limit : Nat) (old new : List α) :
    ∀ kept, limit ≤ kept →
      (mergeUpTo precedes limit (old.take kept) new).1 = (mergeUpTo precedes limit old new).1 := by
  fun_induction mergeUpTo precedes limit old new with
  | case1 => exact fun _ _ => rfl
  | case2 | case3 => exact fun _ _ => by rw [List.take_nil, mergeUpTo]
  | case4 limit o old rest ih =>
    rintro (_ | kept) h
    · cases h
    · rw [List.take_succ_cons, mergeUpTo]
      exact congrArg (o :: ·) (ih kept (Nat.le_of_succ_le_succ h))
  | case5 limit o old n new hbefore ih =>
    rintro (_ | kept) h
    · cases h
    · rw [List.take_succ_cons, mergeUpTo, if_pos hbefore, ← List.take_succ_cons]
      exact congrArg (n :: ·) (ih (kept + 1) (Nat.le_of_lt h))
  | case6 limit o old n new hbefore rest ih =>
    rintro (_ | kept) h
    · cases h
    · rw [List.take_succ_cons, mergeUpTo, if_neg hbefore]
      exact congrArg (o :: ·) (ih kept (Nat.le_of_succ_le_succ h))

theorem cut_merged_cut (precedes : α → α → Bool) (limit : Option Nat) (items batch : List α) :
    cut limit (merged precedes (cut limit items) batch) =
      cut limit (merged precedes items batch) := by
  cases limit with
  | none => rfl
  | some limit =>
    simp only [cut, merged, ← mergeUpTo_eq_merge]
    exact mergeUpTo_take precedes limit _ _ limit le_rfl

/-! ## The order of ties -/

theorem mem_iff_of_ties {items' : List α}
    (h : ∀ a, items.filter (tied precedes a) = items'.filter (tied precedes a)) (a : α) :
    a ∈ items ↔ a ∈ items' := by
  have hin := congrArg (a ∈ ·) (h a)
  simpa [List.mem_filter, tied_self] using hin

/-- A sorted list is determined by the order of its ties. -/
theorem Sorted.eq_of_ties {items' : List α} (h : Sorted precedes items)
    (h' : Sorted precedes items')
    (hties : ∀ a, items.filter (tied precedes a) = items'.filter (tied precedes a)) :
    items = items' := by
  have hmem := mem_iff_of_ties hties
  induction items generalizing items' with
  | nil =>
    refine (List.eq_nil_iff_forall_not_mem.mpr fun a ha => ?_).symm
    exact List.not_mem_nil ((hmem a).mpr ha)
  | cons first rest ih =>
    cases items' with
    | nil => exact absurd ((hmem first).mp List.mem_cons_self) List.not_mem_nil
    | cons first' rest' =>
      obtain ⟨hfirst, hrest⟩ := List.pairwise_cons.mp h
      obtain ⟨hfirst', hrest'⟩ := List.pairwise_cons.mp h'
      -- each of the two first items is in the other list, so neither precedes the other
      have hle : ∀ a ∈ first :: rest, before precedes a first = false :=
        fun a ha => (List.mem_cons.mp ha).elim (fun heq => by simp [heq, before]) (hfirst a)
      have hle' : ∀ a ∈ first' :: rest', before precedes a first' = false :=
        fun a ha => (List.mem_cons.mp ha).elim (fun heq => by simp [heq, before]) (hfirst' a)
      have htied : tied precedes first first' = true :=
        tied_iff.mpr ⟨hle' first ((hmem first).mp List.mem_cons_self),
          hle first' ((hmem first').mpr List.mem_cons_self)⟩
      have hhead := hties first
      rw [List.filter_cons_of_pos (tied_self first), List.filter_cons_of_pos htied] at hhead
      obtain rfl := (List.cons.inj hhead).1
      have hties' : ∀ a, rest.filter (tied precedes a) = rest'.filter (tied precedes a) := by
        intro a
        have ha := hties a
        rw [List.filter_cons, List.filter_cons] at ha
        split at ha
        · exact (List.cons.inj ha).2
        · exact ha
      rw [ih hrest hrest' hties' (mem_iff_of_ties hties')]

/-- Sorting leaves a sorted list as it is. -/
theorem Sorted.stableSort_eq (h : Sorted precedes items) : stableSort precedes items = items := by
  induction items using List.reverseRecOn with
  | nil => rfl
  | append_singleton items item ih =>
    obtain ⟨hitems, -, hlast⟩ := List.pairwise_append.mp h
    have hbehind : ∀ a ∈ items.reverse, before precedes item a = false :=
      fun a ha => hlast a (List.mem_reverse.mp ha) item List.mem_cons_self
    rw [stableSort_concat, ih hitems, insertLast_of_forall hbehind, List.reverse_cons,
      List.reverse_reverse]

theorem insertLast_append {item : α} {front back : List α}
    (hback : ∀ b ∈ back, before precedes item b = true) :
    insertLast precedes item (back ++ front) = back ++ insertLast precedes item front := by
  induction back with
  | nil => rfl
  | cons b back ih =>
    rw [List.cons_append, insertLast, if_pos (hback b List.mem_cons_self),
      ih fun b' hb' => hback b' (List.mem_cons_of_mem b hb')]
    rfl

section

variable [IsStrictWeakOrder α fun a b => before precedes a b = true]

theorem sorted_of_tied {a : α} (h : ∀ b ∈ items, tied precedes a b = true) :
    Sorted precedes items := by
  refine List.Pairwise.imp_mem.mpr (List.pairwise_of_forall ?_)
  intro b c hb hc
  exact not_before_trans (tied_iff.mp (h b hb)).1 (tied_iff.mp (h c hc)).2

/-! ## Sorting -/

theorem filter_tied_stableSort (a : α) (items : List α) :
    (stableSort precedes items).filter (tied precedes a) = items.filter (tied precedes a) := by
  rw [filter_stableSort]
  exact (sorted_of_tied fun b hb => (List.mem_filter.mp hb).2).stableSort_eq

/-- **The stable sort is the library's.** -/
theorem stableSort_eq_mergeSort (items : List α) :
    stableSort precedes items = items.mergeSort fun a b => !before precedes b a := by
  have hsorted : Sorted precedes (items.mergeSort fun a b => !before precedes b a) :=
    (List.pairwise_mergeSort notBefore_trans notBefore_total items).imp (by simp)
  refine (sorted_stableSort items).eq_of_ties hsorted fun a => ?_
  rw [filter_tied_stableSort]
  -- the ties are a sorted part of the items, and there are no more of them after sorting
  have hties : Sorted precedes (items.filter (tied precedes a)) :=
    sorted_of_tied fun b hb => (List.mem_filter.mp hb).2
  have hpart : (items.filter (tied precedes a)).Sublist
      (items.mergeSort fun a b => !before precedes b a) :=
    List.sublist_mergeSort notBefore_trans notBefore_total (hties.imp (by simp))
      List.filter_sublist
  have hpart' := hpart.filter (tied precedes a)
  rw [List.filter_filter, funext fun b => Bool.and_self (tied precedes a b)] at hpart'
  exact hpart'.eq_of_length ((List.mergeSort_perm items _).filter _).length_eq.symm

/-! ## Merging -/

theorem filter_tied_merged (h : Sorted precedes items) (a : α) (batch : List α) :
    (merged precedes items batch).filter (tied precedes a) =
      (items ++ batch).filter (tied precedes a) := by
  have htied : ∀ xs : List α, ∀ b ∈ xs.filter (tied precedes a), tied precedes a b = true :=
    fun xs b hb => (List.mem_filter.mp hb).2
  rw [h.filter_merged, merged, (sorted_of_tied (htied batch)).stableSort_eq, List.filter_append]
  refine List.merge_of_le fun b c hb hc => ?_
  have hcb : before precedes c b = false :=
    not_before_trans (tied_iff.mp (htied items b hb)).1 (tied_iff.mp (htied batch c hc)).2
  rw [hcb]
  rfl

/-- A merged batch is sorted behind the items. -/
theorem Sorted.merged_eq (h : Sorted precedes items) (batch : List α) :
    merged precedes items batch = stableSort precedes (items ++ batch) := by
  refine (sorted_merged h batch).eq_of_ties (sorted_stableSort _) fun a => ?_
  rw [filter_tied_merged h, filter_tied_stableSort]

/-- Sorting some of the items before all of them makes no difference. -/
theorem stableSort_append (items batch : List α) :
    stableSort precedes (stableSort precedes items ++ batch) =
      stableSort precedes (items ++ batch) := by
  refine (sorted_stableSort _).eq_of_ties (sorted_stableSort _) fun a => ?_
  simp only [filter_tied_stableSort, List.filter_append]

/-- **Cutting early makes no difference**, if what comes later is cut as well. -/
theorem cut_stableSort_append (limit : Option Nat) (items batch : List α) :
    cut limit (stableSort precedes (cut limit (stableSort precedes items) ++ batch)) =
      cut limit (stableSort precedes (items ++ batch)) := by
  have hsorted : Sorted precedes (stableSort precedes items) := sorted_stableSort items
  rw [← (hsorted.cut limit).merged_eq, cut_merged_cut, hsorted.merged_eq, stableSort_append]

/-! ## Calls -/

/-- **A merged batch leaves what is first of all items**, sorted and cut. -/
theorem Sorted.fst_addAll (h : Sorted precedes items) (limit : Option Nat) (batch : List α) :
    (SortedItems.addAll precedes batch limit items).1 =
      SortedItems.cut limit (stableSort precedes (items ++ batch)) := by
  cases limit with
  | none => rw [fst_addAll_none, h.merged_eq, SortedItems.cut]
  | some limit =>
    simp only [SortedItems.addAll, Option.all_some, Option.getD_some, ← h.merged_eq]
    split
    · next hnothing =>
      obtain ⟨hnone, hfits⟩ := Bool.and_eq_true_iff.mp hnothing
      rw [merged, List.isEmpty_iff.mp hnone, List.merge_right]
      exact (List.take_of_length_le (of_decide_eq_true hfits)).symm
    · rw [mergeUpTo_eq_merge]
      rfl

/-- **An added item leaves what is first of all items**, sorted and cut. -/
theorem Sorted.fst_add (h : Sorted precedes items) (limit : Option Nat) (item : α) :
    (SortedItems.add precedes item limit items).1 =
      SortedItems.cut limit (stableSort precedes (items ++ [item])) := by
  have hwhole := h.stableSort_eq
  obtain ⟨front, back, rfl, hfront, hback, hpoint⟩ := h.exists_place item
  have hplaced : stableSort precedes (front ++ back ++ [item]) = front ++ item :: back := by
    rw [stableSort_concat, hwhole, List.reverse_append,
      insertLast_append fun b hb => hback b (List.mem_reverse.mp hb),
      insertLast_of_forall fun a ha => hfront a (List.mem_reverse.mp ha)]
    simp
  rw [hplaced]
  simp only [SortedItems.add, hpoint, insertIdx_length_append]
  cases limit with
  | none => rfl
  | some limit =>
    dsimp only
    split
    · next hfull =>
      -- there is no room, and the item would come last
      rw [List.length_append] at hfull
      have hnone : back = [] := List.length_eq_zero_iff.mp (by omega)
      subst hnone
      have hlength : limit = front.length := by
        rw [List.length_nil] at hfull
        omega
      rw [hlength]
      simp [SortedItems.cut]
    · rfl

end

end Palette.SortedItems
