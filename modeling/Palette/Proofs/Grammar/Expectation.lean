import Mathlib.Data.List.Basic
import Palette.Grammar.Recognizer
import Palette.Proofs.Grammar.PathOrder

/-!
# What a message expects

The kinds that a message says were expected are those that the paths of a table start with, each
named once, where it comes first. Since the paths of an alternative are in order, their first kinds
are in order as well; so it does not matter how many paths start with the same kind.

Main statement: `RecognizerInput.expected_congr`.
-/

namespace Palette

/-! ## Lists without what occurs again -/

section

variable {α β : Type} [BEq α] [LawfulBEq α] [BEq β] [LawfulBEq β]

theorem eraseDups_filter (p : α → Bool) (l : List α) :
    (l.filter p).eraseDups = l.eraseDups.filter p := by
  induction h : l.length using Nat.strongRecOn generalizing l with
  | ind n ih =>
    cases l with
    | nil => rfl
    | cons a l =>
      have hlen : (l.filter fun b => !b == a).length < n := by
        rw [← h, List.length_cons]
        exact Nat.lt_succ_of_le (List.length_filter_le _ _)
      have hrest := ih _ hlen (l.filter fun b => !b == a) rfl
      rw [List.filter_filter] at hrest
      rw [List.eraseDups_cons]
      by_cases ha : p a = true
      · rw [List.filter_cons_of_pos ha, List.filter_cons_of_pos ha, List.eraseDups_cons, ← hrest,
          List.filter_filter]
        simp only [Bool.and_comm]
      · rw [List.filter_cons_of_neg ha, List.filter_cons_of_neg ha, ← hrest]
        congr 1
        refine List.filter_congr fun b _ => ?_
        by_cases hb : b = a
        · simp [hb, ha]
        · simp [hb]

/-- The recursion that takes out an element behind its first occurrence, last of all. -/
theorem eraseDups_cons_eq (a : α) (l : List α) :
    (a :: l).eraseDups = a :: l.eraseDups.filter (!· == a) := by
  rw [List.eraseDups_cons, eraseDups_filter]

theorem eraseDups_map_eraseDups (f : α → β) (l : List α) :
    (l.eraseDups.map f).eraseDups = (l.map f).eraseDups := by
  induction l with
  | nil => rfl
  | cons a l ih =>
    have habsorb : ((l.eraseDups.filter (!· == a)).map f).filter (!· == f a)
        = (l.eraseDups.map f).filter (!· == f a) := by
      rw [List.filter_map, List.filter_map, List.filter_filter]
      congr 1
      refine List.filter_congr fun b _ => ?_
      by_cases hb : b = a
      · simp [hb]
      · simp [hb]
    rw [eraseDups_cons_eq, List.map_cons, List.map_cons, eraseDups_cons_eq, eraseDups_cons_eq,
      ← eraseDups_filter, habsorb, eraseDups_filter, ih]

theorem sublist_eraseDups (l : List α) : l.eraseDups.Sublist l := by
  induction l with
  | nil => exact List.Sublist.refl _
  | cons a l ih =>
    rw [eraseDups_cons_eq]
    exact (List.filter_sublist.trans ih).cons_cons a

theorem nodup_eraseDups (l : List α) : l.eraseDups.Nodup := by
  induction l with
  | nil => exact List.nodup_nil
  | cons a l ih =>
    rw [eraseDups_cons_eq]
    exact List.nodup_cons.mpr ⟨by simp, ih.filter _⟩

theorem eraseDups_append_congr {l l' m m' : List α} (hl : l.eraseDups = l'.eraseDups)
    (hm : m.eraseDups = m'.eraseDups) : (l ++ m).eraseDups = (l' ++ m').eraseDups := by
  have hcontains (a : α) : l.contains a = l'.contains a := by
    rw [Bool.eq_iff_iff, List.contains_iff_mem, List.contains_iff_mem, ← List.mem_eraseDups, hl,
      List.mem_eraseDups]
  rw [List.eraseDups_append, List.eraseDups_append, hl, List.removeAll, List.removeAll,
    eraseDups_filter, eraseDups_filter, hm]
  congr 1
  refine List.filter_congr fun a _ => ?_
  simp only [List.elem_eq_contains, hcontains]

end

/-! ## First kinds -/

/-- The kinds that the paths start with, one for each path that is not empty. -/
def firstKinds (paths : List Path) : List TokenKind := paths.filterMap List.head?

theorem mem_firstKinds {paths : List Path} {kind : TokenKind} :
    kind ∈ firstKinds paths ↔ ∃ rest, kind :: rest ∈ paths := by
  simp only [firstKinds, List.mem_filterMap, List.head?_eq_some_iff]
  exact ⟨fun ⟨_, hmem, rest, h⟩ => ⟨rest, h ▸ hmem⟩, fun ⟨rest, hmem⟩ => ⟨_, hmem, rest, rfl⟩⟩

/-- The first kinds of paths in order are in order. -/
theorem pairwise_firstKinds {paths : List Path} (h : Path.Ordered paths) :
    (firstKinds paths).Pairwise fun a b => a.index ≤ b.index := by
  refine List.pairwise_filterMap.mpr (h.imp fun {p q} hpq a ha b hb => ?_)
  obtain ⟨p, rfl⟩ := List.head?_eq_some_iff.mp ha
  obtain ⟨q, rfl⟩ := List.head?_eq_some_iff.mp hb
  have hle := hpq.1
  simp only [Path.le, Bool.or_eq_true, decide_eq_true_eq, Bool.and_eq_true, beq_iff_eq] at hle
  omega

/-- Paths in order start with the same kinds in the same order if they start with the same kinds
at all. -/
theorem eraseDups_firstKinds {paths paths' : List Path} (h : Path.Ordered paths)
    (h' : Path.Ordered paths') (hmem : ∀ kind, kind ∈ firstKinds paths ↔ kind ∈ firstKinds paths') :
    (firstKinds paths).eraseDups = (firstKinds paths').eraseDups := by
  have hperm : (firstKinds paths).eraseDups.Perm (firstKinds paths').eraseDups := by
    rw [List.perm_ext_iff_of_nodup (nodup_eraseDups _) (nodup_eraseDups _)]
    intro kind
    rw [List.mem_eraseDups, List.mem_eraseDups, hmem]
  refine hperm.eq_of_pairwise (fun a b _ _ hab hba => ?_)
    ((pairwise_firstKinds h).sublist (sublist_eraseDups _))
    ((pairwise_firstKinds h').sublist (sublist_eraseDups _))
  cases a
  cases b
  exact congrArg TokenKind.mk (Nat.le_antisymm hab hba)

namespace RecognizerInput

variable {input input' : RecognizerInput}

theorem firstNames_eq (table : DecisionTable) :
    input.firstNames table
      = ((table.flatMap firstKinds).map input.vocabulary.name).eraseDups := by
  rw [firstNames, List.flatMap_def, ← List.map_filterMap]
  congr 2
  induction table with
  | nil => rfl
  | cons paths table ih =>
    rw [List.flatten_cons, List.filterMap_append, ih, List.map_cons, List.flatten_cons]
    rfl

/-- **The same is expected** of tables whose alternatives start with the same kinds. -/
theorem expected_congr (hvocabulary : input'.vocabulary = input.vocabulary)
    {table table' : DecisionTable}
    (h : List.Forall₂ (fun paths paths' =>
      (firstKinds paths).eraseDups = (firstKinds paths').eraseDups) table table') :
    input'.expected table' = input.expected table := by
  have hkinds : (table.flatMap firstKinds).eraseDups = (table'.flatMap firstKinds).eraseDups := by
    induction h with
    | nil => rfl
    | cons hpaths _ ih =>
      rw [List.flatMap_cons, List.flatMap_cons]
      exact eraseDups_append_congr hpaths ih
  have hnames : input'.firstNames table' = input.firstNames table := by
    rw [firstNames_eq, firstNames_eq, hvocabulary, ← eraseDups_map_eraseDups, ← hkinds,
      eraseDups_map_eraseDups]
  rw [expected, expected, hnames]

end RecognizerInput

end Palette
