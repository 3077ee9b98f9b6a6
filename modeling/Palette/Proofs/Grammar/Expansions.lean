import Palette.Proofs.Grammar.Exactness

/-!
# The computation of lookahead paths comes to an end

Rules may expand each other without end, and a rule is remembered only when its expansion is over.
But an expansion inside of another one has a smaller budget, or it is of a rule that the other rule
leads to, and where no rule is left recursive, rules do not lead back to themselves. So only so
many expansions can be nested, and with that many the computation ends as it does with any more.

`watchedPaths` watches over the expansions: it gives up as soon as one of them is within the same
budget as the one it is part of without being of a rule that this one leads to. It comes to the
same paths and remembers the same.

Main statements: `Grammar.watchedPaths_below_rulePaths`, `Grammar.serves_watchedPaths` and
`Grammar.paths_end`.
-/

namespace Palette

/-! ## Computations that give up earlier -/

namespace PathM

variable {α β ι : Type}

/-- Where the first comes to a value, the second comes to the same and remembers the same. -/
def Below (m m' : PathM α) : Prop :=
  ∀ memo result, m memo = some result → m' memo = some result

theorem Below.refl (m : PathM α) : m.Below m := fun _ _ h => h

theorem Below.trans {m m' m'' : PathM α} (h : m.Below m') (h' : m'.Below m'') : m.Below m'' :=
  fun memo result hresult => h' memo result (h memo result hresult)

theorem below_of_failure (m : PathM α) : (failure : PathM α).Below m := nofun

theorem Below.bind {m m' : PathM α} {f f' : α → PathM β} (h : m.Below m')
    (hf : ∀ a, (f a).Below (f' a)) : (m >>= f).Below (m' >>= f') := by
  intro memo result hresult
  obtain ⟨⟨a, between⟩, hm, hrest⟩ := Option.bind_eq_some_iff.mp hresult
  exact Option.bind_eq_some_iff.mpr ⟨(a, between), h memo _ hm, hf a between result hrest⟩

theorem Below.mapM {f f' : ι → PathM β} (h : ∀ i, (f i).Below (f' i)) (l : List ι) :
    PathM.Below (l.mapM f) (l.mapM f') := by
  induction l with
  | nil => exact .refl _
  | cons i rest ih =>
    rw [List.mapM_cons, List.mapM_cons]
    exact (h i).bind fun _ => ih.bind fun _ => .refl _

theorem Below.ite {m m' : PathM α} {condition : Prop} [Decidable condition] (a : PathM α)
    (h : ¬condition → m.Below m') :
    PathM.Below (if condition then a else m) (if condition then a else m') := by
  split
  · exact .refl _
  · next hnot => exact h hnot

end PathM

theorem repetition_below {body body' : Nat → PathM (List Path)}
    (h : ∀ budget, (body budget).Below (body' budget)) (budget : Nat) :
    (repetition body budget).Below (repetition body' budget) := by
  induction budget using Nat.strongRecOn with
  | ind budget ih =>
    rw [repetition, repetition]
    refine .ite _ fun hbudget => (h budget).bind fun firsts => ?_
    refine (PathM.Below.mapM (fun first => ?_) firsts).bind fun _ => .refl _
    exact .ite _ fun hfirst => .ite _ fun hroom => (ih _ (by omega)).bind fun _ => .refl _

/-- The one gives no other paths of rules than the other, but may give up earlier. -/
def RulesBelow (rule rule' : RuleId → Nat → PathM (List Path)) : Prop :=
  ∀ r budget, (rule r budget).Below (rule' r budget)

namespace RulesBelow

variable {rule rule' : RuleId → Nat → PathM (List Path)}

mutual

theorem production (h : RulesBelow rule rule') (p : Production) (budget : Nat) :
    (p.paths rule budget).Below (p.paths rule' budget) :=
  match p with
  | .terminal _ => by
    rw [Production.paths, Production.paths]
    exact .refl _
  | .nonterminal r => by
    rw [Production.paths, Production.paths]
    exact .ite _ fun _ => h r budget
  | .decision _ _ kind alternatives => by
    have hbody := h.body alternatives
    rw [Production.paths.eq_def, Production.paths.eq_def]
    refine .ite _ fun _ => ?_
    cases kind with
    | option => exact (hbody budget).bind fun _ => .refl _
    | many => exact (repetition_below hbody budget).bind fun _ => .refl _
    | atLeastOne =>
      refine (hbody budget).bind fun firsts => ?_
      refine (PathM.Below.mapM (fun first => ?_) firsts).bind fun _ => .refl _
      exact .ite _ fun _ => (repetition_below hbody _).bind fun _ => .refl _
    | alternation => exact (h.alternatives alternatives budget).bind fun _ => .refl _

theorem continued (h : RulesBelow rule rule') (ps : List Production) (budget : Nat)
    (paths : List Path) :
    (continuePaths rule ps budget paths).Below (continuePaths rule' ps budget paths) :=
  match ps with
  | [] => by
    rw [continuePaths, continuePaths]
    exact .refl _
  | p :: rest => by
    rw [continuePaths, continuePaths]
    refine .ite _ fun _ => (PathM.Below.mapM (fun path => ?_) paths).bind fun parts =>
      h.continued rest budget _
    exact .ite _ fun _ => (h.production p _).bind fun _ => .refl _

theorem body (h : RulesBelow rule rule') (bodies : List (List Production)) (budget : Nat) :
    (bodyPaths rule bodies budget).Below (bodyPaths rule' bodies budget) :=
  match bodies with
  | [] => by
    rw [bodyPaths, bodyPaths]
    exact .refl _
  | body :: _ => by
    rw [bodyPaths, bodyPaths]
    exact h.continued body budget [[]]

theorem alternatives (h : RulesBelow rule rule') (sequences : List (List Production))
    (budget : Nat) :
    (alternativePaths rule sequences budget).Below (alternativePaths rule' sequences budget) :=
  match sequences with
  | [] => by
    rw [alternativePaths, alternativePaths]
    exact .refl _
  | sequence :: rest => by
    rw [alternativePaths, alternativePaths]
    exact (h.continued sequence budget [[]]).bind fun _ =>
      (h.alternatives rest budget).bind fun _ => .refl _

end

/-- **A sequence has no other paths** than with rules that give up later. -/
theorem sequence (h : RulesBelow rule rule') (ps : List Production) (budget : Nat) :
    (sequencePaths rule ps budget).Below (sequencePaths rule' ps budget) :=
  h.continued ps budget [[]]

theorem repeated (h : RulesBelow rule rule') (ps : List Production) (budget : Nat) :
    (repetition (sequencePaths rule ps) budget).Below
      (repetition (sequencePaths rule' ps) budget) :=
  repetition_below (h.sequence ps) budget

theorem trans {rule'' : RuleId → Nat → PathM (List Path)} (h : RulesBelow rule rule')
    (h' : RulesBelow rule' rule'') : RulesBelow rule rule'' :=
  fun r budget => (h r budget).trans (h' r budget)

theorem expandRule (h : RulesBelow rule rule') (g : Grammar) :
    RulesBelow (g.expandRule rule) (g.expandRule rule') := by
  intro r budget
  refine (PathM.Below.refl _).bind fun memo => ?_
  cases memo.lookup (r, budget) with
  | some paths => exact .refl _
  | none => exact (h.sequence (g.rule r) budget).bind fun _ => .refl _

end RulesBelow

/-! ## Watching over the expansions -/

namespace Grammar

variable {g : Grammar} {clean : Prop} {depth depth' : Nat} {ps : List Production}

/-- The paths of rules, as long as the budget is smaller than the one given or the rule is one that
the rule given leads to. -/
def fromRule (g : Grammar) (r : RuleId) (budget : Nat) (rule : RuleId → Nat → PathM (List Path))
    (r' : RuleId) (budget' : Nat) : PathM (List Path) :=
  if budget' < budget ∨ budget' = budget ∧ r' ∈ g.leadsTo r then rule r' budget' else failure

/-- The paths of a rule, remembered, with at most `depth` nested expansions, each of which has a
smaller budget than the one that it is part of or is of a rule that this one leads to. -/
def watchedPaths (g : Grammar) : Nat → RuleId → Nat → PathM (List Path)
  | 0, _, _ => failure
  | depth + 1, r, budget => g.expandRule (g.fromRule r budget (g.watchedPaths depth)) r budget

theorem fromRule_below (g : Grammar) (r : RuleId) (budget : Nat)
    (rule : RuleId → Nat → PathM (List Path)) : RulesBelow (g.fromRule r budget rule) rule := by
  intro r' budget'
  unfold fromRule
  split
  · exact .refl _
  · exact PathM.below_of_failure _

theorem fromRule_of_leads {rule : RuleId → Nat → PathM (List Path)} {r r' : RuleId}
    {budget budget' : Nat} (h : budget' < budget ∨ budget' = budget ∧ g.Leads r r') :
    g.fromRule r budget rule r' budget' = rule r' budget' := if_pos h

theorem fromRule_mono {rule rule' : RuleId → Nat → PathM (List Path)} (h : RulesBelow rule rule')
    (r : RuleId) (budget : Nat) :
    RulesBelow (g.fromRule r budget rule) (g.fromRule r budget rule') := by
  intro r' budget'
  unfold fromRule
  split
  · exact h r' budget'
  · exact .refl _

/-- What is not given up is computed as without the watch. -/
theorem watchedPaths_below_rulePaths (g : Grammar) (depth : Nat) :
    RulesBelow (g.watchedPaths depth) (g.rulePaths depth) := by
  induction depth with
  | zero => exact fun _ _ => PathM.below_of_failure _
  | succ depth ih =>
    intro r budget
    rw [rulePaths_succ]
    exact ((g.fromRule_below r budget _).trans ih).expandRule g r budget

/-- What is computed is computed as well where more expansions may be nested. -/
theorem watchedPaths_below (g : Grammar) (hdepth : depth ≤ depth') :
    RulesBelow (g.watchedPaths depth) (g.watchedPaths depth') := by
  induction depth generalizing depth' with
  | zero => exact fun _ _ => PathM.below_of_failure _
  | succ depth ih =>
    obtain ⟨depth', rfl⟩ : ∃ n, depth' = n + 1 := ⟨depth' - 1, by omega⟩
    exact fun r budget => (fromRule_mono (ih (by omega)) r budget).expandRule g r budget

/-- **The watch gives nothing up** if as many expansions may be nested as the budget and the rank of
the rule allow for. -/
theorem yields_watchedPaths (hg : g.Sound clean) {rank : RuleId → Nat}
    (hrank : ∀ r < g.size, rank r < g.size ∧ ∀ r', g.Leads r r' → rank r' < rank r)
    {budget : Nat} {r : RuleId} (hr : r < g.size) (hdepth : g.expansions budget (rank r) ≤ depth) :
    g.Yields (g.watchedPaths depth r budget) (g.IsPathSet budget (g.rule r)) := by
  induction depth generalizing r budget with
  | zero => exact absurd hdepth (Nat.not_succ_le_zero _)
  | succ depth ih =>
    refine yields_expandRule hg
      (serves_of_expansions hrank hr hdepth fun r' hr' b hask hless => ?_)
    rw [fromRule_of_leads hask]
    exact ih hr' hless

/-- With that many expansions the watched rules serve whatever is asked for within a budget. -/
theorem serves_watchedPaths (hg : g.Sound clean) (hleft : g.leftRecursion = [])
    {budget budget' : Nat} (hle : budget' ≤ budget) (leading : List RuleId) :
    g.Serves (g.watchedPaths (g.pathDepth budget)) budget' leading := by
  obtain ⟨rank, hrank⟩ := exists_rank hleft
  intro r hr b hb hask
  exact yields_watchedPaths hg hrank hr (expansions_le_pathDepth hb (by omega) (hrank r hr).1)

/-- A computation that ends with the watched rules ends in the same way without the watch and where
more expansions may be nested. -/
theorem exists_result_of_watched {α : Type} {m : (RuleId → Nat → PathM (List Path)) → PathM α}
    (hm : ∀ {rule rule'}, RulesBelow rule rule' → (m rule).Below (m rule')) {post : α → Prop}
    (h : g.Yields (m (g.watchedPaths depth)) post) {memo : PathMemo} (hmemo : g.Knows memo) :
    ∃ result, ∀ depth' ≥ depth, m (g.watchedPaths depth') memo = some result ∧
      m (g.rulePaths depth') memo = some result := by
  obtain ⟨a, memo', hresult, -, -⟩ := h memo hmemo
  refine ⟨(a, memo'), fun depth' hdepth => ?_⟩
  have hwatched := hm (g.watchedPaths_below hdepth) memo _ hresult
  exact ⟨hwatched, hm (g.watchedPaths_below_rulePaths depth') memo _ hwatched⟩

/--
**The computation of lookahead paths comes to an end.** In a recorded grammar without left
recursion, the paths of the body of a decision and of its repetitions are computed, whatever calls
went before, with so many expansions as the budget and the number of rules allow to be nested; more
of them make no difference.

This is so although an expansion is given up that is part of another one and within the same budget,
unless its rule is one that the rule of the other leads to. No rule leads back to itself.
-/
theorem paths_end {τ : Type} [Inhabited τ] {rules : List (RuleDef τ)}
    (hrecorded : (recordRules rules).1 = g) (hleft : g.leftRecursion = []) {d : Decision}
    (hd : d ∈ g.decisions) {body : List Production}
    (hbody : body ∈ d.alternatives ∨ body = bodyOf d.alternatives) {memo : PathMemo}
    (hmemo : g.Filled memo) (k : Nat) :
    (∀ r < g.size, ¬Relation.TransGen g.Leads r r) ∧
    (∃ result, ∀ depth ≥ g.pathDepth k,
      sequencePaths (g.watchedPaths depth) body k memo = some result ∧
        sequencePaths (g.rulePaths depth) body k memo = some result) ∧
    ∃ result, ∀ depth ≥ g.pathDepth k,
      repetition (sequencePaths (g.watchedPaths depth) body) k memo = some result ∧
        repetition (sequencePaths (g.rulePaths depth) body) k memo = some result := by
  have hg := hrecorded ▸ sound_recordRules rules
  have hsound : SoundSequence g.size ((recordRules rules).2 = []) body := by
    have hdecision := SoundSequence.singleton (hg.decisions d hd)
    rcases hbody with hmem | rfl
    · exact hdecision.inside body hmem
    · exact hdecision.body
  have hknows := hmemo.knows hg hleft
  have hsequence (b : Nat) (hb : b ≤ k) : g.Yields
      (sequencePaths (g.watchedPaths (g.pathDepth k)) body b) (g.IsPathSet b body) :=
    yields_sequencePaths (fun p hp => computes_of_sound (hsound p hp))
      (serves_watchedPaths hg hleft hb _)
  have hrepetition : g.Yields
      (repetition (sequencePaths (g.watchedPaths (g.pathDepth k)) body) k)
      (g.IsPathSet k [.decision d.number d.key .many [body]]) :=
    yields_repetition d.number d.key hsequence
  exact ⟨fun r hr => not_transGen_of_leftRecursion hleft hr,
    exists_result_of_watched (fun h => h.sequence body k) (hsequence k (Nat.le_refl k)) hknows,
    exists_result_of_watched (fun h => h.repeated body k) hrepetition hknows⟩

end Grammar

/-- Letters a, one behind the other, each with a letter b in front or without. -/
def GrammarDef.chains : GrammarDef Unit :=
  { vocabulary := Vocabulary.letters
    rules := [
      ⟨"chain", do
        let _ ← Body.perhaps 0 (Body.take ⟨1⟩)
        Body.call "link"⟩,
      ⟨"link", do
        let _ ← Body.take ⟨0⟩
        let _ ← Body.perhaps 0 (Body.call "chain")
        return ()⟩] }

/-- The rules of chains expand each other without end, within the same budget where there is no
letter b. -/
theorem Grammar.paths_end_chains :
    ∃ g d result, (recordRules GrammarDef.chains.rules).1 = g ∧ g.leftRecursion = [] ∧
      d ∈ g.decisions ∧ d.alternatives = [[.nonterminal 0]] ∧ g.leadsTo 0 = [1] ∧
      (∀ depth ≥ g.pathDepth 2,
        sequencePaths (g.watchedPaths depth) [.nonterminal 0] 2 [] = some result ∧
          sequencePaths (g.rulePaths depth) [.nonterminal 0] 2 [] = some result) ∧
      result.1 = [[⟨0⟩], [⟨0⟩, ⟨0⟩], [⟨0⟩, ⟨1⟩], [⟨1⟩, ⟨0⟩]] ∧
      result.2.map (·.1) = [(0, 2), (1, 2), (0, 1), (1, 1)] := by
  have hleft : (recordRules GrammarDef.chains.rules).1.leftRecursion = [] := by cbv
  have hleads : (recordRules GrammarDef.chains.rules).1.leadsTo 0 = [1] := by cbv
  have hd : ⟨1, ⟨1, 0⟩, .option, [[.nonterminal 0]]⟩ ∈
      (recordRules GrammarDef.chains.rules).1.decisions :=
    List.mem_cons_of_mem _ List.mem_cons_self
  have htwo : ((recordRules GrammarDef.chains.rules).1.paths [.nonterminal 0] 2 []).map
      (fun result => (result.1, result.2.map (·.1))) =
      some ([[⟨0⟩], [⟨0⟩, ⟨0⟩], [⟨0⟩, ⟨1⟩], [⟨1⟩, ⟨0⟩]], [(0, 2), (1, 2), (0, 1), (1, 1)]) := by
    cbv
  generalize hrecorded : (recordRules GrammarDef.chains.rules).1 = g at *
  obtain ⟨-, ⟨result, hresult⟩, -⟩ :=
    paths_end hrecorded hleft hd (.inl List.mem_cons_self) .start 2
  rw [paths, (hresult _ (Nat.le_refl _)).2, Option.map_some, Option.some.injEq,
    Prod.mk.injEq] at htwo
  exact ⟨g, _, result, rfl, hleft, hd, rfl, hleads, hresult, htwo.1, htwo.2⟩

end Palette
