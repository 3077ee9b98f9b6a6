import Mathlib.Data.Finset.Card
import Mathlib.Data.Finset.Range
import Mathlib.Logic.Relation
import Palette.Grammar.LeftRecursion
import Palette.Proofs.Grammar.Nullable

/-!
# Grammars without left recursion

The search for a way back to a rule is exhaustive: when it finds none, the rules it entered hold
all that the rule leads to, they are closed under leading on, and the rule is not one of them. The
depth it is given suffices, because along a way no rule is entered twice. When it finds one, each
rule of the way leads to the next.

So where no rule is left recursive, the rules can be ranked such that every rule leads only to
rules of smaller rank: the rank of a rule is the number of rules that it leads to in the end.

Main statements: `isChain_of_findCycle`, `not_transGen_of_leftRecursion` and `exists_rank`.
-/

namespace Palette

theorem alternativesLeading_eq (nullable : RuleId → Bool) (alternatives : List (List Production)) :
    alternativesLeading nullable alternatives
      = alternatives.flatMap (sequenceLeading nullable) := by
  induction alternatives with
  | nil => simp [alternativesLeading]
  | cons sequence rest ih => rw [alternativesLeading, ih, List.flatMap_cons]

/-! ## The search is exhaustive -/

/-- What a search that finds no way back has done. -/
structure Explored (g : Grammar) (steps : RuleId → List RuleId) (start : RuleId)
    (candidates visited visited' : List RuleId) : Prop where
  ruleSet : g.RuleSet visited'
  suffix : visited <:+ visited'
  /-- Every candidate was entered. -/
  candidates : ∀ c ∈ candidates, c ∈ visited' ∧ c ≠ start
  /-- Everything that the rules entered on the way lead to was entered. -/
  steps : ∀ r ∈ visited', r ∉ visited → ∀ c ∈ steps r, c ∈ visited' ∧ c ≠ start

section

variable {g : Grammar} {steps : RuleId → List RuleId} {start : RuleId}

/-- A search below a rule and then among the other candidates is one among all. -/
theorem Explored.cons {next : RuleId} {others visited between visited' : List RuleId}
    (hnext : next ≠ start)
    (h : Explored g steps start (steps next) (next :: visited) between)
    (h' : Explored g steps start others between visited') :
    Explored g steps start (next :: others) visited visited' := by
  have hmem : next ∈ between := h.suffix.subset List.mem_cons_self
  refine ⟨h'.ruleSet, ((List.suffix_cons next visited).trans h.suffix).trans h'.suffix, ?_, ?_⟩
  · exact List.forall_mem_cons.mpr ⟨⟨h'.suffix.subset hmem, hnext⟩, h'.candidates⟩
  · intro r hr hnot c hc
    by_cases hbetween : r ∈ between
    · have hentered : c ∈ between ∧ c ≠ start := by
        by_cases hr : r = next
        · exact h.candidates c (hr ▸ hc)
        · exact h.steps r hbetween (by simp [hr, hnot]) c hc
      exact ⟨h'.suffix.subset hentered.1, hentered.2⟩
    · exact h'.steps r hr hbetween c hc

/-- **A search that finds no way back was exhaustive.** -/
theorem explored_of_findCycle (hsteps : ∀ r, ∀ c ∈ steps r, c < g.size) {depth : Nat}
    {candidates visited visited' : List RuleId}
    (h : findCycle steps start depth candidates visited = (none, visited'))
    (hcandidates : ∀ c ∈ candidates, c < g.size) (hvisited : g.RuleSet visited)
    (hdepth : g.size ≤ depth + visited.length) :
    Explored g steps start candidates visited visited' := by
  induction depth, candidates, visited using findCycle.induct steps start generalizing visited' with
  | case1 depth visited =>
    rw [findCycle] at h
    cases h
    exact ⟨hvisited, List.suffix_refl _, fun _ hc => absurd hc List.not_mem_nil,
      fun r hr hnot => absurd hr hnot⟩
  | case2 depth visited others =>
    rw [findCycle.eq_def] at h
    simp only [if_true, reduceCtorEq, Prod.mk.injEq, false_and] at h
  | case3 depth visited next others hnext hknown ih =>
    rw [findCycle.eq_def] at h
    simp only [if_neg hnext, if_pos hknown] at h
    have hothers := ih h (List.forall_mem_cons.mp hcandidates).2 hvisited hdepth
    have hmem := hothers.suffix.subset (List.contains_iff_mem.mp hknown)
    exact ⟨hothers.ruleSet, hothers.suffix,
      List.forall_mem_cons.mpr ⟨⟨hmem, hnext⟩, hothers.candidates⟩, hothers.steps⟩
  | case4 visited next others hnext hnew =>
    -- With as many rules entered as there are, there is none that was not.
    have hmem := hvisited.mem_of_size_le (by omega) (List.forall_mem_cons.mp hcandidates).1
    exact absurd (List.contains_iff_mem.mpr hmem) hnew
  | case5 visited next others hnext hnew depth path between hfound ih =>
    rw [findCycle, if_neg hnext, if_neg hnew, hfound] at h
    cases h
  | case6 visited next others hnext hnew depth between hfound ih ihothers =>
    rw [findCycle, if_neg hnext, if_neg hnew, hfound] at h
    obtain ⟨hlt, hrest⟩ := List.forall_mem_cons.mp hcandidates
    have hnot : next ∉ visited := fun hmem => hnew (List.contains_iff_mem.mpr hmem)
    have hbelow := ih hfound (hsteps next) (hvisited.cons hlt hnot) (by
      rw [List.length_cons]
      omega)
    have hlen := hbelow.suffix.length_le
    rw [List.length_cons] at hlen
    -- More rules are entered than before, so the depth suffices for the other candidates as well.
    exact hbelow.cons hnext (ihothers h hrest hbelow.ruleSet (by omega))

/-- **What a search finds is a way back**, for every rule that leads to the candidates. -/
theorem isChain_of_findCycle {depth : Nat} {candidates visited visited' path : List RuleId}
    (h : findCycle steps start depth candidates visited = (some path, visited')) {r : RuleId}
    (hr : ∀ c ∈ candidates, c ∈ steps r) :
    (r :: path).IsChain (fun r c => c ∈ steps r) ∧ path.getLast? = some start := by
  induction depth, candidates, visited using findCycle.induct steps start
    generalizing r path visited' with
  | case1 depth visited =>
    rw [findCycle] at h
    cases h
  | case2 depth visited others =>
    rw [findCycle.eq_def] at h
    simp only [if_true] at h
    cases h
    exact ⟨.cons_cons (hr start List.mem_cons_self) (.singleton start), rfl⟩
  | case3 depth visited next others hnext hknown ih =>
    rw [findCycle.eq_def] at h
    simp only [if_neg hnext, if_pos hknown] at h
    exact ih h (List.forall_mem_cons.mp hr).2
  | case4 visited next others hnext hnew =>
    rw [findCycle, if_neg hnext, if_neg hnew] at h
    cases h
  | case5 visited next others hnext hnew depth below between hfound ih =>
    rw [findCycle, if_neg hnext, if_neg hnew, hfound] at h
    cases h
    obtain ⟨hway, hlast⟩ := ih hfound fun _ hc => hc
    refine ⟨.cons_cons (hr next List.mem_cons_self) hway, ?_⟩
    rw [List.getLast?_cons, hlast, Option.getD_some]
  | case6 visited next others hnext hnew depth between hfound ih ihothers =>
    rw [findCycle, if_neg hnext, if_neg hnew, hfound] at h
    exact ihothers h (List.forall_mem_cons.mp hr).2

end

/-! ## No way back -/

namespace Grammar

variable {g : Grammar}

/-- Whether the first rule leads to the second. -/
def Leads (g : Grammar) (r r' : RuleId) : Prop := r' ∈ g.leadsTo r

theorem lt_size_of_leads {r r' : RuleId} (h : g.Leads r r') : r' < g.size :=
  List.mem_range.mp (List.mem_filter.mp h).1

/-- A rule for which no way back is found does not lead back to itself. -/
theorem not_transGen_of_cycle?_eq_none {r : RuleId} (h : g.cycle? g.leadsTo r = none) :
    ¬Relation.TransGen g.Leads r r := by
  rw [cycle?, Option.map_eq_none_iff] at h
  have hexplored : Explored g g.leadsTo r (g.leadsTo r) [] _ :=
    explored_of_findCycle (fun _ _ hc => lt_size_of_leads hc) (Prod.ext h rfl)
      (fun _ hc => lt_size_of_leads hc) (.nil g) (Nat.le_refl _)
  have hreached : ∀ r', Relation.TransGen g.Leads r r' →
      r' ∈ (findCycle g.leadsTo r g.size (g.leadsTo r) []).2 ∧ r' ≠ r := by
    intro r' hway
    induction hway with
    | single hstep => exact hexplored.candidates _ hstep
    | tail _ hstep ih => exact hexplored.steps _ ih.1 List.not_mem_nil _ hstep
  exact fun hback => (hreached r hback).2 rfl

/-- **Without left recursion no rule leads back to itself.** -/
theorem not_transGen_of_leftRecursion (h : g.leftRecursion = []) {r : RuleId} (hr : r < g.size) :
    ¬Relation.TransGen g.Leads r r := by
  have hnone := List.filterMap_eq_nil_iff.mp h r (List.mem_range.mpr hr)
  simp only [getElem?_leadTable, Option.map_eq_none_iff] at hnone
  exact not_transGen_of_cycle?_eq_none hnone

/-- **Without left recursion rules lead to rules of smaller rank only.** -/
theorem exists_rank (h : g.leftRecursion = []) : ∃ rank : RuleId → Nat,
    ∀ r < g.size, rank r < g.size ∧ ∀ r', g.Leads r r' → rank r' < rank r := by
  classical
  -- The rank of a rule is the number of rules that it leads to in the end.
  refine ⟨fun r => ((Finset.range g.size).filter (Relation.TransGen g.Leads r)).card, ?_⟩
  intro r hr
  constructor
  · have hlt := Finset.card_lt_card (Finset.filter_ssubset.mpr
      ⟨r, Finset.mem_range.mpr hr, not_transGen_of_leftRecursion h hr⟩)
    rwa [Finset.card_range] at hlt
  · intro r' hleads
    apply Finset.card_lt_card
    rw [Finset.ssubset_iff_of_subset]
    · refine ⟨r', Finset.mem_filter.mpr
        ⟨Finset.mem_range.mpr (lt_size_of_leads hleads), .single hleads⟩, fun hmem => ?_⟩
      exact not_transGen_of_leftRecursion h (lt_size_of_leads hleads) (Finset.mem_filter.mp hmem).2
    · intro x hx
      obtain ⟨hlt, hway⟩ := Finset.mem_filter.mp hx
      exact Finset.mem_filter.mpr ⟨hlt, hway.head hleads⟩

end Grammar

end Palette
