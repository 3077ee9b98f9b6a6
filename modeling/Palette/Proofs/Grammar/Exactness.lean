import Palette.Proofs.Grammar.PathSets
import Palette.Proofs.Grammar.Rewriting
import Palette.Proofs.Grammar.Analysis

/-!
# Lookahead paths are exact

The paths of one sequence after the other are computed with the same memory, which holds what was
found for rules within several budgets. Whatever calls went before, what is remembered is right, so
a call always comes to the same: the words of the sequence that are shorter than the budget, and
the beginnings, as long as the budget, of its sentential forms.

Main statement: `Grammar.lookaheadPaths_exact`.
-/

namespace Palette

namespace Grammar

/-- The sequences that occur in a grammar: those of its rules and of the decisions it lists, the
alternatives inside of them, and every part of one. -/
inductive Holds (g : Grammar) : List Production → Prop where
  | rule {r : RuleId} {ps} (rule : g.rules[r]? = some ps) : Holds g ps
  | listed {d : Decision} {ps} (listed : d ∈ g.decisions) (chosen : ps ∈ d.alternatives) :
    Holds g ps
  | inside {number key kind alternatives front ps behind}
      (outer : Holds g (front ++ .decision number key kind alternatives :: behind))
      (chosen : ps ∈ alternatives) : Holds g ps
  | part {front ps behind} (whole : Holds g (front ++ (ps ++ behind))) : Holds g ps

/-- The memories that any number of calls, within any budgets, leave behind. -/
inductive Filled (g : Grammar) : PathMemo → Prop where
  | start : Filled g []
  | call {memo memo' ps budget paths} (before : Filled g memo) (held : g.Holds ps)
      (run : g.paths ps budget memo = some (paths, memo')) : Filled g memo'

variable {g : Grammar} {clean : Prop} {ps : List Production} {memo : PathMemo}

/-- Whatever occurs in a sound grammar is sound. -/
theorem Holds.sound (hg : g.Sound clean) (h : g.Holds ps) : SoundSequence g.size clean ps := by
  induction h with
  | rule rule => exact hg.rules _ (List.mem_of_getElem? rule)
  | listed listed chosen =>
    exact (SoundSequence.singleton (hg.decisions _ listed)).inside _ chosen
  | inside outer chosen ih =>
    have hdecision := SoundSequence.singleton (ih _ (List.mem_append_right _ List.mem_cons_self))
    exact hdecision.inside _ chosen
  | part whole ih =>
    exact fun p hp => ih p (List.mem_append_right _ (List.mem_append_left _ hp))

/-- **What is remembered is right**, whatever calls were made. -/
theorem Filled.knows (hg : g.Sound clean) (hleft : g.leftRecursion = []) (h : g.Filled memo) :
    g.Knows memo := by
  induction h with
  | start => exact knows_nil g
  | call before held run ih =>
    obtain ⟨paths, memo', hrun, hmemo', -⟩ := yields_paths hg hleft (held.sound hg) _ ih
    rw [run, Option.some.injEq, Prod.mk.injEq] at hrun
    exact hrun.2 ▸ hmemo'

/-- **Lookahead paths are exact.** In a recorded grammar without left recursion, the paths of a
sequence are computed whatever calls went before. They are in order, none of them twice, and they
are the words of the sequence that are shorter than the budget and the beginnings of that length
of its sentential forms. -/
theorem lookaheadPaths_exact {τ : Type} [Inhabited τ] {rules : List (RuleDef τ)}
    (hrecorded : (recordRules rules).1 = g) (hleft : g.leftRecursion = []) (hps : g.Holds ps)
    (hmemo : g.Filled memo) (k : Nat) :
    ∃ paths memo', g.paths ps k memo = some (paths, memo') ∧ Path.Ordered paths ∧
      ∀ w, w ∈ paths ↔
        w.length < k ∧ g.Derives (· == ·) ps w ∨
          w.length = k ∧ ∃ rest, g.Reaches ps (w.map .terminal ++ rest) := by
  have hg := hrecorded ▸ sound_recordRules rules
  obtain ⟨paths, memo', hrun, -, hset⟩ :=
    yields_paths hg hleft (hps.sound hg) memo (hmemo.knows hg hleft)
  exact ⟨paths, memo', hrun, hset.ordered, fun w => (hset.mem_iff w).trans opens_iff⟩

/-- The paths of pairs of letters within four tokens, when those of one pair within three and two
tokens are known. -/
theorem lookaheadPaths_exact_pairs :
    ∃ g memo paths memo', (recordRules GrammarDef.pairs.rules).1 = g ∧ g.leftRecursion = [] ∧
      g.Holds (g.rule 0) ∧ g.Filled memo ∧ memo.map (·.1) = [(1, 2), (1, 3)] ∧
      g.paths (g.rule 0) 4 memo = some (paths, memo') ∧
      paths = [[], [⟨0⟩, ⟨1⟩], [⟨0⟩, ⟨1⟩, ⟨0⟩, ⟨1⟩]] ∧ Path.Ordered paths ∧
      ∀ w, w ∈ paths ↔
        w.length < 4 ∧ g.Derives (· == ·) (g.rule 0) w ∨
          w.length = 4 ∧ ∃ rest, g.Reaches (g.rule 0) (w.map .terminal ++ rest) := by
  have hleft : (recordRules GrammarDef.pairs.rules).1.leftRecursion = [] := by cbv
  have hpair : (recordRules GrammarDef.pairs.rules).1.Holds [.nonterminal 1] :=
    .listed (d := ⟨0, ⟨0, 0⟩, .many, [[.nonterminal 1]]⟩) List.mem_cons_self List.mem_cons_self
  have hpairs : (recordRules GrammarDef.pairs.rules).1.Holds
      ((recordRules GrammarDef.pairs.rules).1.rule 0) := .rule (r := 0) rfl
  have hthree : (recordRules GrammarDef.pairs.rules).1.paths [.nonterminal 1] 3 []
      = some ([[⟨0⟩, ⟨1⟩]], [((1, 3), [[⟨0⟩, ⟨1⟩]])]) := by cbv
  have htwo : (recordRules GrammarDef.pairs.rules).1.paths [.nonterminal 1] 2
      [((1, 3), [[⟨0⟩, ⟨1⟩]])]
      = some ([[⟨0⟩, ⟨1⟩]], [((1, 2), [[⟨0⟩, ⟨1⟩]]), ((1, 3), [[⟨0⟩, ⟨1⟩]])]) := by cbv
  have hfour : ((recordRules GrammarDef.pairs.rules).1.paths
      ((recordRules GrammarDef.pairs.rules).1.rule 0) 4
      [((1, 2), [[⟨0⟩, ⟨1⟩]]), ((1, 3), [[⟨0⟩, ⟨1⟩]])]).map (·.1)
      = some [[], [⟨0⟩, ⟨1⟩], [⟨0⟩, ⟨1⟩, ⟨0⟩, ⟨1⟩]] := by cbv
  generalize hrecorded : (recordRules GrammarDef.pairs.rules).1 = g at *
  have hmemo : g.Filled [((1, 2), [[⟨0⟩, ⟨1⟩]]), ((1, 3), [[⟨0⟩, ⟨1⟩]])] :=
    .call (.call .start hpair hthree) hpair htwo
  obtain ⟨paths, memo', hrun, hordered, hexact⟩ :=
    lookaheadPaths_exact hrecorded hleft hpairs hmemo 4
  rw [hrun, Option.map_some, Option.some.injEq] at hfour
  exact ⟨g, _, paths, memo', rfl, hleft, hpairs, hmemo, rfl, hrun, hfour, hordered, hexact⟩

end Grammar

end Palette
