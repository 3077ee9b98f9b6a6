import Palette.Grammar.Lookahead
import Palette.Proofs.Grammar.Leading
import Palette.Proofs.Grammar.Shape

/-!
# What the text of a sequence can start with

A sequence of productions opens with a path when some piece of text described by it starts with
these kinds. The path is cut at a budget: once that is used up, whatever the rest of the sequence
asks for is left out, so a rule that expands without end opens with paths of every length.

Openings within different budgets fit together. A path that is cut shorter is one within the
smaller budget (`Opens.take`), and in a grammar without left recursion, where every sequence has
an opening (`exists_opens`), each path is the beginning of one within a larger budget
(`Opens.exists_longer`).
-/

namespace Palette

namespace Grammar

/-- The paths, cut at a budget, that the text of a sequence of productions can start with. -/
inductive Opens (g : Grammar) : Nat → List Production → Path → Prop where
  | full {ps} : Opens g 0 ps []
  | nil {b} : Opens g b [] []
  | terminal {b kind ps w} (rest : Opens g b ps w) :
    Opens g (b + 1) (.terminal kind :: ps) (kind :: w)
  | nonterminal {b r body ps u w} (rule : g.rules[r]? = some body) (inner : Opens g b body u)
      (rest : Opens g (b - u.length) ps w) :
    Opens g b (.nonterminal r :: ps) (u ++ w)
  | optionNone {b number key bodies ps w} (rest : Opens g b ps w) :
    Opens g b (.decision number key .option bodies :: ps) w
  | optionSome {b number key bodies ps u w} (inner : Opens g b (bodyOf bodies) u)
      (rest : Opens g (b - u.length) ps w) :
    Opens g b (.decision number key .option bodies :: ps) (u ++ w)
  | manyDone {b number key bodies ps w} (rest : Opens g b ps w) :
    Opens g b (.decision number key .many bodies :: ps) w
  | manyMore {b number key bodies ps u w} (inner : Opens g b (bodyOf bodies) u)
      (rest : Opens g (b - u.length) (.decision number key .many bodies :: ps) w) :
    Opens g b (.decision number key .many bodies :: ps) (u ++ w)
  | atLeastOne {b number key bodies ps u w} (inner : Opens g b (bodyOf bodies) u)
      (rest : Opens g (b - u.length) (.decision number key .many bodies :: ps) w) :
    Opens g b (.decision number key .atLeastOne bodies :: ps) (u ++ w)
  | alternation {b number key alternatives sequence ps u w} (chosen : sequence ∈ alternatives)
      (inner : Opens g b sequence u) (rest : Opens g (b - u.length) ps w) :
    Opens g b (.decision number key .alternation alternatives :: ps) (u ++ w)

variable {g : Grammar} {b b' : Nat} {p : Production} {ps qs : List Production} {u v w : Path}
  {number : Nat} {key : DecisionKey} {bodies alternatives : List (List Production)}

/-! ## One part behind the other -/

theorem Opens.length_le (h : g.Opens b ps w) : w.length ≤ b := by
  induction h with
  | full => exact Nat.le_refl _
  | nil => exact Nat.zero_le _
  | terminal _ ih => exact Nat.succ_le_succ ih
  | optionNone _ ih | manyDone _ ih => exact ih
  | nonterminal _ _ _ ihu ih | optionSome _ _ ihu ih | manyMore _ _ ihu ih | atLeastOne _ _ ihu ih
  | alternation _ _ _ ihu ih =>
    rw [List.length_append]
    omega

/-- Nothing fits into an empty budget. -/
@[simp] theorem opens_zero_iff : g.Opens 0 ps w ↔ w = [] :=
  ⟨fun h => List.eq_nil_of_length_eq_zero (Nat.le_zero.mp h.length_le), fun h => h ▸ .full⟩

@[simp] theorem opens_nil_iff : g.Opens b [] w ↔ w = [] := by
  refine ⟨fun h => ?_, fun h => h ▸ .nil⟩
  cases h <;> rfl

theorem Opens.append (h : g.Opens b ps u) (h' : g.Opens (b - u.length) qs v) :
    g.Opens b (ps ++ qs) (u ++ v) := by
  have hcut (b : Nat) (u w : Path) : b - (u ++ w).length = b - u.length - w.length := by
    rw [List.length_append, Nat.sub_sub]
  induction h with
  | full =>
    rw [opens_zero_iff.mp h']
    exact .full
  | nil => exact h'
  | terminal _ ih => exact .terminal (ih (by simpa using h'))
  | optionNone _ ih => exact .optionNone (ih h')
  | manyDone _ ih => exact .manyDone (ih h')
  | nonterminal rule inner _ _ ih =>
    exact List.append_assoc .. ▸ .nonterminal rule inner (ih (hcut .. ▸ h'))
  | optionSome inner _ _ ih => exact List.append_assoc .. ▸ .optionSome inner (ih (hcut .. ▸ h'))
  | manyMore inner _ _ ih => exact List.append_assoc .. ▸ .manyMore inner (ih (hcut .. ▸ h'))
  | atLeastOne inner _ _ ih => exact List.append_assoc .. ▸ .atLeastOne inner (ih (hcut .. ▸ h'))
  | alternation chosen inner _ _ ih =>
    exact List.append_assoc .. ▸ .alternation chosen inner (ih (hcut .. ▸ h'))

/-- A sequence opens with what its first production opens with, and then with the rest. -/
theorem opens_cons_iff : g.Opens b (p :: ps) w ↔
    ∃ u v, w = u ++ v ∧ g.Opens b [p] u ∧ g.Opens (b - u.length) ps v := by
  constructor
  · intro h
    generalize hqs : p :: ps = qs at h
    induction h generalizing p with
    | full => exact ⟨[], [], rfl, .full, opens_zero_iff.mpr rfl⟩
    | nil => cases hqs
    | @terminal b kind _ w rest _ =>
      cases hqs
      exact ⟨[kind], w, rfl, .terminal .nil, rest⟩
    | @nonterminal _ _ _ _ u w rule inner rest =>
      cases hqs
      exact ⟨u, w, rfl, List.append_nil u ▸ .nonterminal rule inner .nil, rest⟩
    | @optionNone _ _ _ _ _ w rest =>
      cases hqs
      exact ⟨[], w, rfl, .optionNone .nil, rest⟩
    | @optionSome _ _ _ _ _ u w inner rest =>
      cases hqs
      exact ⟨u, w, rfl, List.append_nil u ▸ .optionSome inner .nil, rest⟩
    | @manyDone _ _ _ _ _ w rest =>
      cases hqs
      exact ⟨[], w, rfl, .manyDone .nil, rest⟩
    | @manyMore _ _ _ _ _ u w inner rest _ ih =>
      cases hqs
      obtain ⟨x, y, rfl, hx, hy⟩ := ih rfl
      refine ⟨u ++ x, y, (List.append_assoc ..).symm, .manyMore inner hx, ?_⟩
      rwa [List.length_append, ← Nat.sub_sub]
    | @atLeastOne _ _ _ _ _ u w inner rest _ ih =>
      cases hqs
      obtain ⟨x, y, rfl, hx, hy⟩ := ih rfl
      refine ⟨u ++ x, y, (List.append_assoc ..).symm, .atLeastOne inner hx, ?_⟩
      rwa [List.length_append, ← Nat.sub_sub]
    | @alternation _ _ _ _ _ _ u w chosen inner rest =>
      cases hqs
      exact ⟨u, w, rfl, List.append_nil u ▸ .alternation chosen inner .nil, rest⟩
  · rintro ⟨u, v, rfl, hu, hv⟩
    exact hu.append hv

/-! ## Single productions -/

@[simp] theorem opens_terminal_iff {kind : TokenKind} :
    g.Opens (b + 1) [.terminal kind] w ↔ w = [kind] := by
  constructor
  · intro h
    cases h with
    | terminal rest => rw [opens_nil_iff.mp rest]
  · rintro rfl
    exact .terminal .nil

theorem opens_nonterminal_iff {r : RuleId} (hr : r < g.size) :
    g.Opens b [.nonterminal r] w ↔ g.Opens b (g.rule r) w := by
  constructor
  · intro h
    cases h with
    | full => exact .full
    | nonterminal rule inner rest =>
      rw [Grammar.rule, rule, opens_nil_iff.mp rest, List.append_nil]
      exact inner
  · exact fun h => List.append_nil w ▸ .nonterminal (getElem?_rules hr) h .nil

theorem opens_option_iff : g.Opens b [.decision number key .option bodies] w ↔
    w = [] ∨ g.Opens b (bodyOf bodies) w := by
  constructor
  · intro h
    cases h with
    | full => exact .inl rfl
    | optionNone rest => exact .inl (opens_nil_iff.mp rest)
    | optionSome inner rest => exact .inr (by rwa [opens_nil_iff.mp rest, List.append_nil])
  · rintro (rfl | h)
    · exact .optionNone .nil
    · exact List.append_nil w ▸ .optionSome h .nil

/-- Of the rounds of a repetition, only those that take a token count. -/
theorem opens_many_iff : g.Opens b [.decision number key .many bodies] w ↔
    w = [] ∨ ∃ u v, u ≠ [] ∧ w = u ++ v ∧ g.Opens b (bodyOf bodies) u ∧
      g.Opens (b - u.length) [.decision number key .many bodies] v := by
  constructor
  · intro h
    generalize hqs : [Production.decision number key .many bodies] = qs at h
    induction h with
    | full => exact .inl rfl
    | manyDone rest =>
      cases hqs
      exact .inl (opens_nil_iff.mp rest)
    | @manyMore _ _ _ _ _ u w inner rest _ ih =>
      cases hqs
      cases u with
      | nil => exact ih rfl
      | cons a u => exact .inr ⟨a :: u, w, nofun, rfl, inner, rest⟩
    | nil | terminal | nonterminal | optionNone | optionSome | atLeastOne | alternation => cases hqs
  · rintro (rfl | ⟨u, v, -, rfl, hu, hv⟩)
    · exact .manyDone .nil
    · exact .manyMore hu hv

theorem opens_atLeastOne_iff : g.Opens b [.decision number key .atLeastOne bodies] w ↔
    ∃ u v, w = u ++ v ∧ g.Opens b (bodyOf bodies) u ∧
      g.Opens (b - u.length) [.decision number key .many bodies] v := by
  constructor
  · intro h
    cases h with
    | full => exact ⟨[], [], rfl, .full, .full⟩
    | atLeastOne inner rest => exact ⟨_, _, rfl, inner, rest⟩
  · rintro ⟨u, v, rfl, hu, hv⟩
    exact .atLeastOne hu hv

theorem opens_alternation_iff : g.Opens (b + 1) [.decision number key .alternation alternatives] w ↔
    ∃ sequence ∈ alternatives, g.Opens (b + 1) sequence w := by
  constructor
  · intro h
    cases h with
    | alternation chosen inner rest =>
      exact ⟨_, chosen, by rwa [opens_nil_iff.mp rest, List.append_nil]⟩
  · rintro ⟨sequence, chosen, h⟩
    exact List.append_nil w ▸ .alternation chosen h .nil

/-! ## Nothing at all -/

/-- What opens with nothing, although there is room, is nullable. -/
theorem Opens.nullable (h : g.Opens b ps []) (hb : 0 < b) :
    sequenceNullable g.isNullable ps = true := by
  generalize hw : ([] : Path) = w at h
  induction h with
  | full => exact absurd hb (Nat.lt_irrefl 0)
  | nil => simp [sequenceNullable]
  | terminal rest => cases hw
  | @nonterminal _ r body _ _ _ rule inner rest ihinner ih =>
    obtain ⟨rfl, rfl⟩ := List.append_eq_nil_iff.mp hw.symm
    have hrule : g.rule r = body := by rw [Grammar.rule, rule, Option.getD_some]
    have hnull := isNullable_of_sequenceNullable (List.getElem?_eq_some_iff.mp rule).1
      (hrule ▸ ihinner hb rfl)
    rw [sequenceNullable, Production.isNullable, hnull, ih hb rfl, Bool.and_true]
  | optionNone rest ih => rw [sequenceNullable, Production.isNullable, ih hb hw, Bool.and_true]
  | optionSome inner rest _ ih =>
    obtain ⟨rfl, rfl⟩ := List.append_eq_nil_iff.mp hw.symm
    rw [sequenceNullable, Production.isNullable, ih hb rfl, Bool.and_true]
  | manyDone rest ih => rw [sequenceNullable, Production.isNullable, ih hb hw, Bool.and_true]
  | manyMore inner rest _ ih =>
    obtain ⟨rfl, rfl⟩ := List.append_eq_nil_iff.mp hw.symm
    exact ih hb rfl
  | atLeastOne inner rest ihinner ih =>
    obtain ⟨rfl, rfl⟩ := List.append_eq_nil_iff.mp hw.symm
    have hrest := ih hb rfl
    rw [sequenceNullable, Bool.and_eq_true] at hrest
    rw [sequenceNullable, Production.isNullable, bodyNullable_eq, ihinner hb rfl, hrest.2,
      Bool.and_true]
  | alternation chosen inner rest ihinner ih =>
    obtain ⟨rfl, rfl⟩ := List.append_eq_nil_iff.mp hw.symm
    have hany := List.any_eq_true.mpr ⟨_, chosen, ihinner hb rfl⟩
    rw [sequenceNullable, Production.isNullable, someNullable_eq, hany, ih hb rfl, Bool.and_true]

/-! ## Smaller budgets -/

/-- **A path that is cut shorter is one within the smaller budget.** -/
theorem Opens.take (h : g.Opens b ps w) (hb : b' ≤ b) : g.Opens b' ps (w.take b') := by
  -- What is left of the smaller budget is the same, however much was cut away.
  have hleft (b' : Nat) (u : Path) : b' - u.length = b' - (u.take b').length := by
    rw [List.length_take]
    omega
  induction h generalizing b' with
  | full =>
    obtain rfl := Nat.le_zero.mp hb
    exact .full
  | nil =>
    rw [List.take_nil]
    exact .nil
  | terminal _ ih =>
    cases b' with
    | zero => exact .full
    | succ b' => exact .terminal (ih (Nat.le_of_succ_le_succ hb))
  | optionNone _ ih => exact .optionNone (ih hb)
  | manyDone _ ih => exact .manyDone (ih hb)
  | @nonterminal b r body ps u w rule inner rest ihinner ih =>
    rw [List.take_append]
    exact .nonterminal rule (ihinner hb) (hleft b' u ▸ ih (Nat.sub_le_sub_right hb _))
  | @optionSome b number key bodies ps u w inner rest ihinner ih =>
    rw [List.take_append]
    exact .optionSome (ihinner hb) (hleft b' u ▸ ih (Nat.sub_le_sub_right hb _))
  | @manyMore b number key bodies ps u w inner rest ihinner ih =>
    rw [List.take_append]
    exact .manyMore (ihinner hb) (hleft b' u ▸ ih (Nat.sub_le_sub_right hb _))
  | @atLeastOne b number key bodies ps u w inner rest ihinner ih =>
    rw [List.take_append]
    exact .atLeastOne (ihinner hb) (hleft b' u ▸ ih (Nat.sub_le_sub_right hb _))
  | @alternation b number key alternatives sequence ps u w chosen inner rest ihinner ih =>
    rw [List.take_append]
    exact .alternation chosen (ihinner hb) (hleft b' u ▸ ih (Nat.sub_le_sub_right hb _))

/-! ## Every sequence opens with something -/

section

variable {P : RuleId → Prop}
  (hsmaller : ∀ b' < b, ∀ ps, SoundSequence g.size True ps → ∃ w, g.Opens b' ps w)
include hsmaller

/-- A sequence opens with something if each production does so when it comes first. -/
theorem exists_opens_sequence (hps : SoundSequence g.size True ps)
    (hleading : ∀ r ∈ sequenceLeading g.isNullable ps, r < g.size → P r)
    (hproductions : ∀ p ∈ ps,
      (∀ r ∈ p.leading g.isNullable, r < g.size → P r) → ∃ w, g.Opens b [p] w) :
    ∃ w, g.Opens b ps w := by
  induction ps with
  | nil => exact ⟨[], .nil⟩
  | cons p rest ih =>
    obtain ⟨hp, hrest⟩ := List.forall_mem_cons.mp hproductions
    simp only [sequenceLeading, List.mem_append] at hleading
    obtain ⟨u, hu⟩ := hp fun r hr => hleading r (.inl hr)
    have hbehind : ∃ v, g.Opens (b - u.length) rest v := by
      rcases Nat.eq_zero_or_pos b with rfl | hb
      · exact ⟨[], by simp⟩
      cases u with
      | nil =>
        have hnull := hu.nullable hb
        rw [sequenceNullable, Bool.and_eq_true] at hnull
        rw [if_pos hnull.1] at hleading
        exact ih hps.tail (fun r hr => hleading r (.inr hr)) hrest
      | cons a u =>
        exact hsmaller _ (Nat.sub_lt hb (Nat.succ_pos _)) rest hps.tail
    obtain ⟨v, hv⟩ := hbehind
    exact ⟨u ++ v, opens_cons_iff.mpr ⟨u, v, rfl, hu, hv⟩⟩

theorem exists_opens_production (hp : p.All (Production.Sound g.size True))
    (hleading : ∀ r ∈ p.leading g.isNullable, r < g.size → ∃ w, g.Opens b (g.rule r) w) :
    ∃ w, g.Opens b [p] w := by
  induction hp with
  | @terminal kind =>
    cases b with
    | zero => exact ⟨[], .full⟩
    | succ b => exact ⟨[kind], .terminal .nil⟩
  | @nonterminal r here =>
    obtain ⟨w, hw⟩ := hleading r (by simp [Production.leading]) here
    exact ⟨w, (opens_nonterminal_iff here).mpr hw⟩
  | @decision number key kind alternatives here inside ih =>
    rw [Production.leading, alternativesLeading_eq] at hleading
    -- Every alternative comes first in the production.
    have halternative : ∀ sequence ∈ alternatives, ∃ w, g.Opens b sequence w :=
      fun sequence hmem => exists_opens_sequence hsmaller (inside sequence hmem)
        (fun r hr => hleading r (List.mem_flatMap.mpr ⟨sequence, hmem, hr⟩)) (ih sequence hmem)
    cases kind with
    | option => exact ⟨[], .optionNone .nil⟩
    | many => exact ⟨[], .manyDone .nil⟩
    | atLeastOne =>
      have hbody : ∃ w, g.Opens b (bodyOf alternatives) w := by
        cases alternatives with
        | nil => exact ⟨[], .nil⟩
        | cons body _ => exact halternative body List.mem_cons_self
      obtain ⟨u, hu⟩ := hbody
      exact ⟨u ++ [], .atLeastOne hu (.manyDone .nil)⟩
    | alternation =>
      obtain ⟨sequence, hmem⟩ := List.exists_mem_of_ne_nil _ (here trivial rfl)
      obtain ⟨u, hu⟩ := halternative sequence hmem
      exact ⟨u ++ [], .alternation hmem hu .nil⟩

end

/-- **Every sequence of a grammar without left recursion opens with something**, within any
budget. -/
theorem exists_opens (hg : g.Sound True) (hleft : g.leftRecursion = []) (b : Nat)
    (ps : List Production) (hps : SoundSequence g.size True ps) : ∃ w, g.Opens b ps w := by
  obtain ⟨rank, hrank⟩ := exists_rank hleft
  induction b using Nat.strongRecOn generalizing ps with
  | ind b hsmaller =>
    have hrule (r : RuleId) (hr : r < g.size) : ∃ w, g.Opens b (g.rule r) w := by
      induction h : rank r using Nat.strongRecOn generalizing r with
      | ind n ih =>
        refine exists_opens_sequence hsmaller (hg.rule r) (fun r' hr' hlt => ?_)
          fun p hp => exists_opens_production hsmaller (hg.rule r p hp)
        have hleads : g.Leads r r' :=
          List.mem_filter.mpr ⟨List.mem_range.mpr hlt, List.contains_iff_mem.mpr hr'⟩
        exact ih _ (h ▸ (hrank r hr).2 r' hleads) r' hlt rfl
    exact exists_opens_sequence hsmaller hps (fun r _ hr => hrule r hr)
      fun p hp => exists_opens_production hsmaller (hps p hp)

/-! ## Larger budgets -/

/-- **A path is the beginning of one within a larger budget.** -/
theorem Opens.exists_longer (hg : g.Sound True) (hleft : g.leftRecursion = [])
    (hps : SoundSequence g.size True ps) (h : g.Opens b' ps w) (hb : b' ≤ b) :
    ∃ w', g.Opens b ps w' ∧ w'.take b' = w := by
  -- What is left of the budget behind a longer beginning is no less than behind the shorter one,
  -- and where that one used the budget up, nothing is asked of the rest.
  have hjoin {b b' : Nat} {u' w : Path} {rest : List Production} (hu' : u'.length ≤ b)
      (hb : b' ≤ b) (ih : ∀ {c : Nat}, b' - (u'.take b').length ≤ c →
        ∃ v, g.Opens c rest v ∧ v.take (b' - (u'.take b').length) = w) :
      ∃ v, g.Opens (b - u'.length) rest v ∧ (u' ++ v).take b' = u'.take b' ++ w := by
    have hlen : (u'.take b').length = min b' u'.length := List.length_take
    obtain ⟨v, hv, hw⟩ := @ih (b - u'.length) (by omega)
    refine ⟨v, hv, ?_⟩
    rw [List.take_append, ← hw]
    congr 2
    omega
  induction h generalizing b with
  | full => 
    obtain ⟨w, hw⟩ := exists_opens hg hleft b _ hps
    exact ⟨w, hw, List.take_zero⟩
  | nil => exact ⟨[], .nil, List.take_nil⟩
  | @terminal b' kind ps w rest ih =>
    cases b with
    | zero => exact absurd hb (Nat.not_succ_le_zero _)
    | succ b =>
      obtain ⟨w', hw', rfl⟩ := ih hps.tail (Nat.le_of_succ_le_succ hb)
      exact ⟨kind :: w', .terminal hw', rfl⟩
  | @nonterminal b' r body ps u w rule inner rest ihinner ih =>
    have hbody : g.rule r = body := by rw [Grammar.rule, rule, Option.getD_some]
    obtain ⟨u', hu', rfl⟩ := ihinner (hbody ▸ hg.rule r) hb
    obtain ⟨v, hv, hw⟩ := hjoin hu'.length_le hb (ih hps.tail)
    exact ⟨u' ++ v, .nonterminal rule hu' hv, hw⟩
  | optionNone rest ih =>
    obtain ⟨w', hw', rfl⟩ := ih hps.tail hb
    exact ⟨w', .optionNone hw', rfl⟩
  | optionSome inner rest ihinner ih =>
    obtain ⟨u', hu', rfl⟩ := ihinner hps.body hb
    obtain ⟨v, hv, hw⟩ := hjoin hu'.length_le hb (ih hps.tail)
    exact ⟨u' ++ v, .optionSome hu' hv, hw⟩
  | manyDone rest ih =>
    obtain ⟨w', hw', rfl⟩ := ih hps.tail hb
    exact ⟨w', .manyDone hw', rfl⟩
  | manyMore inner rest ihinner ih =>
    obtain ⟨u', hu', rfl⟩ := ihinner hps.body hb
    obtain ⟨v, hv, hw⟩ := hjoin hu'.length_le hb (ih hps)
    exact ⟨u' ++ v, .manyMore hu' hv, hw⟩
  | atLeastOne inner rest ihinner ih =>
    obtain ⟨u', hu', rfl⟩ := ihinner hps.body hb
    obtain ⟨v, hv, hw⟩ := hjoin hu'.length_le hb (ih hps.repeated)
    exact ⟨u' ++ v, .atLeastOne hu' hv, hw⟩
  | alternation chosen inner rest ihinner ih =>
    obtain ⟨u', hu', rfl⟩ := ihinner (hps.inside _ chosen) hb
    obtain ⟨v, hv, hw⟩ := hjoin hu'.length_le hb (ih hps.tail)
    exact ⟨u' ++ v, .alternation chosen hu' hv, hw⟩

end Grammar

end Palette
