import Palette.Proofs.Grammar.Leading
import Palette.Proofs.Grammar.Listing
import Palette.Proofs.Grammar.Rewriting

/-!
# Left recursion is reported exactly

When all decisions of a rule's sequence are settled, in whatever way, tokens and rules are left. One
of these rules can be invoked before a token is taken if what stands in front of it derives the
empty word: this is a left step. Nothing else makes up the rules that a rule leads to, although
these are computed from the marks of nullable rules and without settling anything.

The search for a way back is exhaustive, and what it finds is a way. So a rule is reported if and
only if left steps take it back to itself, and what is reported is such a way.

Main statements: `Grammar.leads_iff_leftStep` and `Grammar.leftRecursion_exact`.
-/

namespace Palette

/-! ## Leading rules of parts -/

section

variable {nullable : RuleId → Bool} {p : Production} {ps qs : List Production}
  {alternatives : List (List Production)} {r : RuleId}

theorem sequenceNullable_append : sequenceNullable nullable (ps ++ qs)
    = (sequenceNullable nullable ps && sequenceNullable nullable qs) := by
  induction ps with
  | nil => simp [sequenceNullable]
  | cons p ps ih => rw [List.cons_append, sequenceNullable, sequenceNullable, ih, Bool.and_assoc]

theorem mem_sequenceLeading_cons : r ∈ sequenceLeading nullable (p :: ps) ↔
    r ∈ p.leading nullable ∨ p.isNullable nullable = true ∧ r ∈ sequenceLeading nullable ps := by
  rw [sequenceLeading, List.mem_append]
  split
  · next h => simp [h]
  · next h => simp [h]

theorem mem_sequenceLeading_append : r ∈ sequenceLeading nullable (ps ++ qs) ↔
    r ∈ sequenceLeading nullable ps ∨
      sequenceNullable nullable ps = true ∧ r ∈ sequenceLeading nullable qs := by
  induction ps with
  | nil => simp [sequenceNullable, sequenceLeading]
  | cons p ps ih =>
    rw [List.cons_append, mem_sequenceLeading_cons, mem_sequenceLeading_cons, ih,
      sequenceNullable, Bool.and_eq_true]
    tauto

theorem mem_alternativesLeading : r ∈ alternativesLeading nullable alternatives ↔
    ∃ sequence ∈ alternatives, r ∈ sequenceLeading nullable sequence := by
  rw [alternativesLeading_eq, List.mem_flatMap]

theorem mem_alternativesLeading_of_bodyOf
    (h : r ∈ sequenceLeading nullable (bodyOf alternatives)) :
    r ∈ alternativesLeading nullable alternatives := by
  cases alternatives with
  | nil => simp [bodyOf, sequenceLeading] at h
  | cons body _ => exact mem_alternativesLeading.mpr ⟨body, List.mem_cons_self, h⟩

theorem exists_leading_of_mem (h : r ∈ sequenceLeading nullable ps) :
    ∃ p ∈ ps, r ∈ p.leading nullable := by
  induction ps with
  | nil => simp [sequenceLeading] at h
  | cons p ps ih =>
    rcases mem_sequenceLeading_cons.mp h with h | ⟨-, h⟩
    · exact ⟨p, List.mem_cons_self, h⟩
    · obtain ⟨q, hq, hr⟩ := ih h
      exact ⟨q, List.mem_cons_of_mem p hq, hr⟩

/-- Sound productions lead to rules of the grammar. -/
theorem lt_of_mem_leading {n : Nat} {clean : Prop} (hp : p.All (Production.Sound n clean))
    (h : r ∈ p.leading nullable) : r < n := by
  induction hp with
  | terminal => simp [Production.leading] at h
  | nonterminal here =>
    rw [Production.leading, List.mem_singleton] at h
    exact h ▸ here
  | decision _ _ ih =>
    rw [Production.leading, mem_alternativesLeading] at h
    obtain ⟨sequence, hsequence, hr⟩ := h
    obtain ⟨q, hq, hr⟩ := exists_leading_of_mem hr
    exact ih sequence hsequence q hq hr

end

namespace Grammar

variable {g : Grammar} {nullable : RuleId → Bool} {ps qs : List Production} {r r' : RuleId}

/-! ## Left steps -/

/-- A decision, anywhere in the sequence, is settled: it is replaced by what can stand in its
place. -/
inductive Settles (g : Grammar) : List Production → List Production → Prop where
  | step {number key kind alternatives inner} (front : List Production)
      (expands : g.Expands (.decision number key kind alternatives) inner)
      (behind : List Production) :
    Settles g (front ++ .decision number key kind alternatives :: behind)
      (front ++ (inner ++ behind))

/-- With some decisions settled, the rule stands in the sequence behind what derives the empty
word. -/
def InvokesFirst (g : Grammar) (ps : List Production) (r : RuleId) : Prop :=
  ∃ front behind, Relation.ReflTransGen g.Settles ps (front ++ .nonterminal r :: behind) ∧
    g.Derives (· == ·) front []

/-- The first rule can invoke the second one before a token is taken. -/
def LeftStep (g : Grammar) (r r' : RuleId) : Prop := g.InvokesFirst (g.rule r) r'

/-! ### Settling keeps what a sequence leads to -/

section

variable {number : Nat} {key : DecisionKey} {kind : DecisionKind}
  {alternatives : List (List Production)} {inner : List Production}

/-- What stands in the place of a decision leads nowhere else. -/
theorem Expands.mem_alternativesLeading
    (h : g.Expands (.decision number key kind alternatives) inner)
    (hr : r ∈ sequenceLeading nullable inner) : r ∈ alternativesLeading nullable alternatives := by
  have hround (hr : r ∈ sequenceLeading nullable
      (bodyOf alternatives ++ [.decision number key .many alternatives])) :
      r ∈ alternativesLeading nullable alternatives := by
    rcases mem_sequenceLeading_append.mp hr with hr | ⟨-, hr⟩
    · exact mem_alternativesLeading_of_bodyOf hr
    · simpa [sequenceLeading, Production.leading] using hr
  cases h with
  | optionNone => simp [sequenceLeading] at hr
  | optionSome => exact mem_alternativesLeading_of_bodyOf hr
  | manyDone => simp [sequenceLeading] at hr
  | manyMore => exact hround hr
  | atLeastOne => exact hround hr
  | alternation chosen => exact Palette.mem_alternativesLeading.mpr ⟨_, chosen, hr⟩

/-- What stands in the place of a decision is not nullable unless the decision is. -/
theorem Expands.isNullable (h : g.Expands (.decision number key kind alternatives) inner)
    (hinner : sequenceNullable nullable inner = true) :
    (Production.decision number key kind alternatives).isNullable nullable = true := by
  cases h with
  | optionNone | optionSome | manyDone | manyMore => rw [Production.isNullable]
  | atLeastOne =>
    rw [sequenceNullable_append, Bool.and_eq_true] at hinner
    rw [Production.isNullable, bodyNullable_eq, hinner.1]
  | alternation chosen =>
    rw [Production.isNullable, someNullable_eq]
    exact List.any_eq_true.mpr ⟨_, chosen, hinner⟩

end

theorem Settles.mem_sequenceLeading (h : g.Settles ps qs) (hr : r ∈ sequenceLeading nullable qs) :
    r ∈ sequenceLeading nullable ps := by
  obtain ⟨front, expands, behind⟩ := h
  rw [mem_sequenceLeading_append, mem_sequenceLeading_append] at hr
  rw [mem_sequenceLeading_append, mem_sequenceLeading_cons, Production.leading]
  rcases hr with hr | ⟨hfront, hr | ⟨hinner, hr⟩⟩
  · exact .inl hr
  · exact .inr ⟨hfront, .inl (expands.mem_alternativesLeading hr)⟩
  · exact .inr ⟨hfront, .inr ⟨expands.isNullable hinner, hr⟩⟩

theorem InvokesFirst.mem_sequenceLeading (h : g.InvokesFirst ps r) :
    r ∈ sequenceLeading g.isNullable ps := by
  obtain ⟨front, behind, hsettled, hempty⟩ := h
  induction hsettled using Relation.ReflTransGen.head_induction_on with
  | refl =>
    refine mem_sequenceLeading_append.mpr (.inr ⟨hempty.nullable, ?_⟩)
    exact mem_sequenceLeading_cons.mpr (.inl (by rw [Production.leading, List.mem_singleton]))
  | head hstep _ ih => exact hstep.mem_sequenceLeading ih

/-! ### What a sequence leads to can be invoked first -/

theorem Settles.append_left (h : g.Settles ps qs) (front : List Production) :
    g.Settles (front ++ ps) (front ++ qs) := by
  obtain ⟨front', expands, behind⟩ := h
  rw [← List.append_assoc, ← List.append_assoc]
  exact .step (front ++ front') expands behind

theorem Settles.append_right (h : g.Settles ps qs) (behind : List Production) :
    g.Settles (ps ++ behind) (qs ++ behind) := by
  obtain ⟨front, expands, behind'⟩ := h
  rw [List.append_assoc, List.append_assoc, List.append_assoc]
  exact .step front expands (behind' ++ behind)

namespace InvokesFirst

theorem nonterminal (r : RuleId) : g.InvokesFirst [.nonterminal r] r := ⟨[], [], .refl, .nil⟩

theorem append_right (h : g.InvokesFirst ps r) (qs : List Production) :
    g.InvokesFirst (ps ++ qs) r := by
  obtain ⟨front, behind, hsettled, hempty⟩ := h
  have hlift : Relation.ReflTransGen g.Settles (ps ++ qs)
      (front ++ .nonterminal r :: behind ++ qs) :=
    Relation.ReflTransGen.lift (· ++ qs) (fun _ _ hstep => hstep.append_right qs) _ _ hsettled
  rw [List.append_assoc, List.cons_append] at hlift
  exact ⟨front, behind ++ qs, hlift, hempty⟩

theorem append_left (h : g.InvokesFirst qs r) (hempty : g.Derives (· == ·) ps []) :
    g.InvokesFirst (ps ++ qs) r := by
  obtain ⟨front, behind, hsettled, hfront⟩ := h
  have hlift : Relation.ReflTransGen g.Settles (ps ++ qs)
      (ps ++ (front ++ .nonterminal r :: behind)) :=
    Relation.ReflTransGen.lift (ps ++ ·) (fun _ _ hstep => hstep.append_left ps) _ _ hsettled
  rw [← List.append_assoc] at hlift
  exact ⟨ps ++ front, behind, hlift, hempty.append hfront⟩

/-- What can be invoked first in the place of a decision can be invoked first by it. -/
theorem settle {number : Nat} {key : DecisionKey} {kind : DecisionKind}
    {alternatives : List (List Production)} {inner : List Production}
    (hinner : g.Expands (.decision number key kind alternatives) inner)
    (h : g.InvokesFirst inner r) :
    g.InvokesFirst [.decision number key kind alternatives] r := by
  obtain ⟨front, behind, hsettled, hempty⟩ := h
  have hstep : g.Settles [.decision number key kind alternatives] (inner ++ []) :=
    .step [] hinner []
  rw [List.append_nil] at hstep
  exact ⟨front, behind, .head hstep hsettled, hempty⟩

/-- A sequence can first invoke what its productions can. -/
theorem of_sequence (hps : ∀ p ∈ ps, r ∈ p.leading g.isNullable → g.InvokesFirst [p] r)
    (h : r ∈ sequenceLeading g.isNullable ps) : g.InvokesFirst ps r := by
  induction ps with
  | nil => simp [sequenceLeading] at h
  | cons p ps ih =>
    obtain ⟨hp, hrest⟩ := List.forall_mem_cons.mp hps
    rcases mem_sequenceLeading_cons.mp h with h | ⟨hnull, h⟩
    · exact (hp h).append_right ps
    · have hempty : g.Derives (· == ·) [p] [] :=
        derives_nil_iff.mpr (by rw [sequenceNullable, hnull, sequenceNullable, Bool.and_true])
      exact (ih hrest h).append_left hempty

/-- A production can first invoke what it leads to. -/
theorem of_production {p : Production} (hp : p.All Production.SingleBodied)
    (h : r ∈ p.leading g.isNullable) : g.InvokesFirst [p] r := by
  induction hp with
  | terminal => simp [Production.leading] at h
  | nonterminal =>
    rw [Production.leading, List.mem_singleton] at h
    exact h ▸ nonterminal _
  | @decision number key kind alternatives here _ ih =>
    rw [Production.leading, mem_alternativesLeading] at h
    obtain ⟨sequence, hsequence, hr⟩ := h
    have hinside : g.InvokesFirst sequence r := of_sequence (ih sequence hsequence) hr
    have hbody (hkind : kind ≠ .alternation) : g.InvokesFirst (bodyOf alternatives) r := by
      obtain ⟨body, rfl⟩ := here hkind
      exact List.mem_singleton.mp hsequence ▸ hinside
    cases kind with
    | option => exact settle .optionSome (hbody (by decide))
    | many => exact settle .manyMore ((hbody (by decide)).append_right _)
    | atLeastOne => exact settle .atLeastOne ((hbody (by decide)).append_right _)
    | alternation => exact settle (.alternation hsequence) hinside

end InvokesFirst

/-- **A rule leads to what it can invoke before a token is taken.** -/
theorem leads_iff_leftStep {τ : Type} [Inhabited τ] (rules : List (RuleDef τ)) {r r' : RuleId} :
    (recordRules rules).1.Leads r r' ↔ (recordRules rules).1.LeftStep r r' := by
  have hmem : (recordRules rules).1.Leads r r' ↔ r' < (recordRules rules).1.size ∧
      r' ∈ sequenceLeading (recordRules rules).1.isNullable ((recordRules rules).1.rule r) := by
    simp [Leads, leadsTo, ruleIds]
  rw [hmem]
  constructor
  · rintro ⟨-, hr⟩
    exact .of_sequence (fun p hp => .of_production (singleBodied_recordRules rules r p hp)) hr
  · intro h
    have hr := h.mem_sequenceLeading
    obtain ⟨p, hp, hleads⟩ := exists_leading_of_mem hr
    exact ⟨lt_of_mem_leading ((sound_recordRules rules).rule r p hp) hleads, hr⟩

/-! ## Ways back -/

/-- Left steps take the rule back to itself. -/
def LeftRecursive (g : Grammar) (r : RuleId) : Prop := Relation.TransGen g.LeftStep r r

/-- The way goes from the rule back to itself, in left steps, of which there is at least one. -/
structure WayBack (g : Grammar) (r : RuleId) (way : List RuleId) : Prop where
  starts : way.head? = some r
  ends : way.getLast? = some r
  steps : way.IsChain g.LeftStep
  moves : 1 < way.length

theorem WayBack.leftRecursive {way : List RuleId} (h : g.WayBack r way) : g.LeftRecursive r := by
  obtain ⟨hstarts, hends, hsteps, hmoves⟩ := h
  match way with
  | [] => cases hstarts
  | [_] => exact absurd hmoves (Nat.lt_irrefl 1)
  | first :: second :: rest =>
    obtain rfl := Option.some.inj hstarts
    obtain ⟨hstep, hrest⟩ := List.isChain_cons_cons.mp hsteps
    have hlast : (second :: rest).getLast (List.cons_ne_nil second rest) = first := by
      rw [List.getLast?_cons_cons] at hends
      exact List.getLast_of_getLast?_eq_some hends
    exact .head' hstep (List.relationReflTransGen_of_exists_isChain_cons rest hrest hlast)

section

variable {τ : Type} [Inhabited τ] {rules : List (RuleDef τ)}

theorem wayBack_of_cycle? {way : List RuleId}
    (h : (recordRules rules).1.cycle? (recordRules rules).1.leadsTo r = some way) :
    (recordRules rules).1.WayBack r way := by
  obtain ⟨path, hpath, rfl⟩ := Option.map_eq_some_iff.mp h
  obtain ⟨hsteps, hlast⟩ := isChain_of_findCycle (Prod.ext hpath rfl) fun _ hc => hc
  refine ⟨rfl, ?_, hsteps.imp fun _ _ => (leads_iff_leftStep rules).mp, ?_⟩
  · rw [List.getLast?_cons, hlast, Option.getD_some]
  · rw [List.length_cons]
    exact Nat.succ_lt_succ (List.length_pos_iff.mpr fun hnil => by simp [hnil] at hlast)

theorem exists_cycle?_of_leftRecursive (h : (recordRules rules).1.LeftRecursive r) :
    ∃ way, (recordRules rules).1.cycle? (recordRules rules).1.leadsTo r = some way := by
  refine Option.ne_none_iff_exists'.mp fun hnone => not_transGen_of_cycle?_eq_none hnone ?_
  exact Relation.TransGen.mono (fun _ _ => (leads_iff_leftStep rules).mpr) _ _ h

open Classical in
/--
**Left recursion is reported exactly.**

The issues are those of the rules that left steps take back to themselves, one for each of them in
the order of the rules, and each of them shows a way back: it begins and ends with the rule and
takes left steps only.
-/
theorem leftRecursion_exact (rules : List (RuleDef τ)) :
    let g := (recordRules rules).1
    ∃ way : RuleId → List RuleId,
      g.leftRecursion = (g.ruleIds.filter fun r => g.LeftRecursive r).map
        (fun r => .leftRecursion (g.name r) ((way r).map g.name)) ∧
      ∀ r, g.LeftRecursive r → g.WayBack r (way r) := by
  intro g
  refine ⟨fun r => (g.cycle? g.leadsTo r).getD [], ?_, fun r hr => ?_⟩
  · rw [← List.filterMap_eq_map, List.filterMap_filter, leftRecursion]
    refine List.filterMap_congr fun r _ => ?_
    simp only [getElem?_leadTable]
    cases hcycle : g.cycle? g.leadsTo r with
    | none =>
      have hnot : ¬g.LeftRecursive r := fun hr => by
        obtain ⟨way, hway⟩ := exists_cycle?_of_leftRecursive hr
        cases hcycle.symm.trans hway
      simp [hnot]
    | some way =>
      have hr : g.LeftRecursive r := (wayBack_of_cycle? hcycle).leftRecursive
      simp [hr, hcycle]
  · obtain ⟨way, hway⟩ := exists_cycle?_of_leftRecursive hr
    show g.WayBack r ((g.cycle? g.leadsTo r).getD [])
    rw [show g.cycle? g.leadsTo r = some way from hway, Option.getD_some]
    exact wayBack_of_cycle? hway

/-- The option in front of the call may be left out. -/
example : (recordRules ([
    ⟨"list", do
      let _ ← Body.perhaps 0 (Body.take ⟨0⟩)
      Body.call "item"⟩,
    ⟨"item", Body.call "list"⟩] : List (RuleDef Unit))).1.leftRecursion
      = [.leftRecursion "list" ["list", "item", "list"],
        .leftRecursion "item" ["item", "list", "item"]] := by cbv

end

end Grammar

end Palette
