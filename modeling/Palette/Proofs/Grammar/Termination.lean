import Mathlib.Tactic.Ring
import Palette.Proofs.Grammar.Leading
import Palette.Proofs.Grammar.Soundness

/-!
# Recognizing comes to an end

What a body can invoke before it moves on is among the leading rules of its sequence: a part that
was gone along without moving on derives the empty word, so it is nullable. Without left recursion
every invocation is therefore one at a later token, or at the same token and of a rule of smaller
rank. This bounds how many invocations can be nested, and a round that is followed by another one
moves on, which bounds the rounds.

`invokeFresh` watches over a run: it cuts the run off where a rule is invoked again at the token at
which an invocation of it that is still going on began.

Main statements: `Body.run_ends` for bodies, `invokeFresh_ends` for rules, and
`Parser.execute_ends` for whole texts.
-/

namespace Palette

/-! ## Invoking no rule twice at a token -/

/--
Runs a rule, but cuts the run off where a rule is invoked again at a token at which it is running
already. `active` holds the invocations that are going on, as rules with the position at which
they began.
-/
def invokeFresh {τ : Type} (rules : List (RuleDef τ)) (input : RecognizerInput) :
    Nat → List (RuleId × Nat) → RuleId → Recognition → Outcome τ
  | 0, _, _, _ => .unfinished
  | steps + 1, active, r, s =>
    if (r, s.position) ∈ active then .unfinished
    else enterRule rules input (invokeFresh rules input steps ((r, s.position) :: active)) steps r s

section

variable {τ : Type} {rules : List (RuleDef τ)} {input : RecognizerInput} {g : Grammar}
  {id r : RuleId} {site : Site} {s t u : Recognition} {steps : Nat}

/-- A run that is not cut off is the one without the watch. -/
theorem invokeFresh_below (rules : List (RuleDef τ)) (input : RecognizerInput) (steps : Nat)
    (active : List (RuleId × Nat)) (r : RuleId) (s : Recognition) :
    (invokeFresh rules input steps active r s).Below (invokeRule rules input steps r s) := by
  induction steps generalizing active r s with
  | zero => exact Outcome.below_of_unfinished _
  | succ steps ih =>
    rw [invokeFresh]
    split
    · exact Outcome.below_of_unfinished _
    · exact enterRule_below (fun r s => ih _ r s) (Nat.le_refl _) r s

theorem invokeFresh_follows (hg : g.Describes rules input) (steps : Nat)
    (active : List (RuleId × Nat)) : g.Follows input (invokeFresh rules input steps active) :=
  fun r s t v hr h =>
    invokeRule_follows hg steps r s t v hr (invokeFresh_below rules input steps active r s _ _ h)

/-! ## What can be invoked -/

/-- Whether the rule can be invoked in the second state by what runs along the productions from
the first one on. -/
def Grammar.MayInvoke (g : Grammar) (ps : List Production) (s : Recognition) (r : RuleId)
    (u : Recognition) : Prop :=
  s.position < u.position ∨ u.position = s.position ∧ r ∈ sequenceLeading g.isNullable ps

namespace Grammar.MayInvoke

variable {ps qs : List Production}

/-- What a later part with leading rules among those of the whole can invoke, the whole can. -/
theorem imp (h : g.MayInvoke qs t r u) (hpos : s.position ≤ t.position)
    (hmem : r ∈ sequenceLeading g.isNullable qs → r ∈ sequenceLeading g.isNullable ps) :
    g.MayInvoke ps s r u := by
  rcases h with hlt | ⟨heq, hleading⟩
  · exact .inl (by omega)
  · by_cases hmoved : s.position < u.position
    · exact .inl hmoved
    · exact .inr ⟨by omega, hmem hleading⟩

/-- What can be invoked behind a production that was gone along. -/
theorem behind {p : Production} (h : g.MayInvoke ps t r u) (hp : input.Follows g s [p] t) :
    g.MayInvoke (p :: ps) s r u := by
  by_cases hsame : t.position = s.position
  · have hnull := (hp.derives_nil hsame).nullable
    rw [sequenceNullable, sequenceNullable, Bool.and_true] at hnull
    refine h.imp hp.position_ge fun hr => ?_
    rw [sequenceLeading, if_pos hnull]
    exact List.mem_append_right _ hr
  · have hge := hp.position_ge
    rcases h with hlt | ⟨heq, -⟩
    · exact .inl (by omega)
    · exact .inl (by omega)

/-- What can be invoked by an alternative of a decision, in whichever round. -/
theorem inside {number : Nat} {key : DecisionKey} {kind : DecisionKind}
    {alternatives : List (List Production)} (h : g.MayInvoke qs t r u) (hmem : qs ∈ alternatives)
    (hpos : s.position ≤ t.position) :
    g.MayInvoke (.decision number key kind alternatives :: ps) s r u := by
  refine h.imp hpos fun hr => ?_
  rw [sequenceLeading, Production.leading, alternativesLeading_eq]
  exact List.mem_append_left _ (List.mem_flatMap.mpr ⟨qs, hmem, hr⟩)

end Grammar.MayInvoke

/-- From the state on and along the productions, all that can be invoked ends, and there are more
steps than rounds. -/
structure Grounded {τ : Type} (g : Grammar) (input : RecognizerInput)
    (invoke : RuleId → Recognition → Outcome τ) (steps : Nat) (ps : List Production)
    (s : Recognition) : Prop where
  position_le : s.position ≤ input.tokens.size
  steps_gt : input.tokens.size - s.position < steps
  ends : ∀ r u, r < g.size → u.position ≤ input.tokens.size → g.MayInvoke ps s r u →
    (invoke r u).Ends

namespace Grounded

variable {invoke : RuleId → Recognition → Outcome τ} {ps qs : List Production}

theorem behind {p : Production} (h : Grounded g input invoke steps (p :: ps) s)
    (hp : input.Follows g s [p] t) : Grounded g input invoke steps ps t := by
  have hge := hp.position_ge
  have hsteps := h.steps_gt
  exact ⟨hp.position_le h.position_le, by omega,
    fun r u hr hu hm => h.ends r u hr hu (hm.behind hp)⟩

theorem inside {number : Nat} {key : DecisionKey} {kind : DecisionKind}
    {alternatives : List (List Production)}
    (h : Grounded g input invoke steps (.decision number key kind alternatives :: ps) s)
    (hmem : qs ∈ alternatives) (hge : s.position ≤ t.position)
    (hle : t.position ≤ input.tokens.size) : Grounded g input invoke steps qs t := by
  have hsteps := h.steps_gt
  exact ⟨hle, by omega, fun r u hr hu hm => h.ends r u hr hu (hm.inside hmem hge)⟩

end Grounded

/-! ## Bodies -/

/-- What follows a call in a static body ends if the call does and, when it came to a value, what
follows its value. -/
theorem Body.ends_andThen {find : String → Option RuleId}
    {invoke : RuleId → Recognition → Outcome τ} {α β : Type} (next : Option β → Body τ α)
    (hfail : next none = fail) {o : Outcome β} (ho : o.Ends)
    (hnext : ∀ v t, o = .finished (some v) t →
      ((next (some v)).run input find invoke steps t).Ends) :
    (o.andThen fun v t => (next v).run input find invoke steps t).Ends := by
  obtain ⟨v, t, rfl⟩ := ho
  cases v with
  | none =>
    show ((next none).run input find invoke steps t).Ends
    rw [hfail]
    exact ⟨none, t, rfl⟩
  | some v => exact hnext v t rfl

/-- **Rounds end**: each but the last moves on. -/
theorem repeatRounds_ends (hg : g.Describes rules input) {σ : Type}
    {round : σ → Recognition → Outcome σ} {qs : List Production} (hkey : g.Decides ⟨id, site⟩)
    (hfollows : ∀ a u a' t, u.stack.head? = some id → round a u = .finished (some a') t →
      input.Follows g u qs t)
    (hends : ∀ a u, u.stack.head? = some id → s.position ≤ u.position →
      u.position ≤ input.tokens.size → (round a u).Ends) {a : σ}
    (hu : u.stack.head? = some id) (hge : s.position ≤ u.position)
    (hle : u.position ≤ input.tokens.size) (hsteps : input.tokens.size - u.position < steps) :
    (repeatRounds input site round steps a u).Ends := by
  induction steps generalizing a u with
  | zero => omega
  | succ steps ih =>
    obtain ⟨table, htable⟩ := hg.exists_table? hkey hu
    simp only [repeatRounds, htable]
    split
    · refine (hends a u hu hge hle).andThen fun v t hv => ?_
      cases v with
      | none => exact ⟨none, t, rfl⟩
      | some a' =>
        have hround := hfollows a u a' t hu hv
        have hmore := hround.position_ge
        have hwithin := hround.position_le hle
        dsimp only
        split
        · exact ⟨some a', t, rfl⟩
        · exact ih (hround.stack_eq ▸ hu) (by omega) hwithin (by omega)
    · exact ⟨some a, u, rfl⟩

/-- **A body ends if all that it can invoke ends.** -/
theorem Body.run_ends (hg : g.Describes rules input)
    {invoke : RuleId → Recognition → Outcome τ} (hinvoke : g.Follows input invoke) {α : Type}
    {b : Body τ α} {calls : List Call} {ps : List Production} (hb : b.Makes calls)
    (hps : Recorded (ruleId? rules) id g.Decides calls ps) (hs : s.stack.head? = some id)
    (hground : Grounded g input invoke steps ps s) :
    (b.run input (ruleId? rules) invoke steps s).Ends := by
  -- Where a call came to a value, `Body.run_follows` tells how far it moved on, and what is behind
  -- it stays grounded.
  induction b generalizing calls ps s with
  | done a => exact ⟨some a, s, rfl⟩
  | fail => exact ⟨none, s, rfl⟩
  | consume kind next ih =>
    obtain ⟨hkind, hfail, rest, rfl, hnext⟩ := hb
    obtain _ | hrest := hps
    cases hc : input.consume s kind with
    | mk token t =>
      simp only [run, hc]
      cases token with
      | none => exact hfail ▸ ⟨none, t, rfl⟩
      | some token =>
        have hp : input.Follows g s [.terminal kind] t :=
          RecognizerInput.follows_consume hkind hg.endOfInput hc
        exact ih _ (hnext _) hrest (hp.stack_eq ▸ hs) (hground.behind hp)
  | subrule name next ih =>
    obtain ⟨hfail, rest, rfl, hnext⟩ := hb
    cases hps with
    | @subrule _ r _ ps hfound hrest =>
      have hr := hg.lt_size hfound
      have hmay : g.MayInvoke (.nonterminal r :: ps) s r s :=
        .inr ⟨rfl, List.mem_append_left _ (List.mem_singleton_self r)⟩
      simp only [run, hfound]
      refine ends_andThen next hfail (hground.ends r s hr hground.position_le hmay) ?_
      intro v t hv
      have hp := RecognizerInput.Follows.nonterminal hr (hinvoke r s t v hr hv)
      exact ih _ (hnext _) hrest (hp.stack_eq ▸ hs) (hground.behind hp)
  | option site body next ihbody ih =>
    obtain ⟨hfail, inner, rest, rfl, hbody, hnext⟩ := hb
    cases hps with
    | option hkey hinner hrest =>
      obtain ⟨table, htable⟩ := hg.exists_table? hkey hs
      have hinside := hground.inside List.mem_cons_self (Nat.le_refl _) hground.position_le
      simp only [run, htable]
      split
      · refine ends_andThen (fun r => next (r.map some)) hfail (ihbody hbody hinner hs hinside) ?_
        intro v t hv
        have halong := run_follows hg hinvoke hbody hinner hs hv
        exact ih _ (hnext _) hrest (halong.stack_eq ▸ hs) (hground.behind (.optionSome halong))
      · exact ih _ (hnext _) hrest hs (hground.behind (.optionNone s))
  | many site initial round next ihround ih =>
    obtain ⟨hfail, inner, rest, rfl, hround, hnext⟩ := hb
    cases hps with
    | @many _ number _ qs _ _ hkey hinner hrest =>
      have hfollows : ∀ a u a' t, u.stack.head? = some id →
          (round a).run input (ruleId? rules) invoke steps u = .finished (some a') t →
          input.Follows g u qs t :=
        fun a u a' t hu ha => run_follows hg hinvoke (hround a) hinner hu ha
      refine ends_andThen next hfail (repeatRounds_ends hg hkey hfollows ?_ hs (Nat.le_refl _)
        hground.position_le hground.steps_gt) ?_
      · intro a u hu hge hle
        exact ihround a (hround a) hinner hu (hground.inside List.mem_cons_self hge hle)
      · intro v t hv
        have hp := repeatRounds_follows hg number hkey hfollows hs hv
        exact ih _ (hnext _) hrest (hp.stack_eq ▸ hs) (hground.behind hp)
  | atLeastOne site initial round next ihround ih =>
    obtain ⟨hfail, inner, rest, rfl, hround, hnext⟩ := hb
    cases hps with
    | @atLeastOne _ number _ qs _ _ hkey hinner hrest =>
      have hfollows : ∀ a u a' t, u.stack.head? = some id →
          (round a).run input (ruleId? rules) invoke steps u = .finished (some a') t →
          input.Follows g u qs t :=
        fun a u a' t hu ha => run_follows hg hinvoke (hround a) hinner hu ha
      have hinside : ∀ a u, u.stack.head? = some id → s.position ≤ u.position →
          u.position ≤ input.tokens.size →
          ((round a).run input (ruleId? rules) invoke steps u).Ends :=
        fun a u hu hge hle =>
          ihround a (hround a) hinner hu (hground.inside List.mem_cons_self hge hle)
      simp only [run]
      split
      · exact hfail ▸ ⟨none, _, rfl⟩
      · refine (hinside initial s hs (Nat.le_refl _) hground.position_le).andThen fun v u hv => ?_
        cases v with
        | none =>
          dsimp only
          exact hfail ▸ ⟨none, u, rfl⟩
        | some a =>
          have hfirst : input.Follows g s (bodyOf [qs]) u := hfollows initial s a u hs hv
          have hu := hfirst.stack_eq ▸ hs
          have hge := hfirst.position_ge
          have hsteps := hground.steps_gt
          refine ends_andThen next hfail (repeatRounds_ends hg hkey hfollows hinside hu hge
            (hfirst.position_le hground.position_le) (by omega)) ?_
          intro v' t hv'
          have hp := hfirst.atLeastOne (repeatRounds_follows hg number hkey hfollows hu hv')
          exact ih _ (hnext _) hrest (hp.stack_eq ▸ hs) (hground.behind hp)
  | choose site count alternatives blank next ihalt ih =>
    obtain ⟨hfail, inner, rest, rfl, hlen, halt, hnext⟩ := hb
    cases hps with
    | choose hkey hcount hbranches hrest =>
      obtain ⟨table, htable⟩ := hg.exists_table? hkey hs
      simp only [run, htable]
      split
      · next i _ =>
        obtain ⟨branch, qs, hmem, hbranch, hqs⟩ :=
          Recorded.exists_branch hlen hcount halt hbranches i
        have hinside := hground.inside hmem (Nat.le_refl _) hground.position_le
        refine ends_andThen next hfail (ihalt i hbranch hqs hs hinside) ?_
        intro v t hv
        have halong := run_follows hg hinvoke hbranch hqs hs hv
        exact ih _ (hnext _) hrest (halong.stack_eq ▸ hs)
          (hground.behind (.alternation hmem halong))
      · exact hfail ▸ ⟨none, _, rfl⟩
  | action event next ih =>
    exact ih hb hps hs ⟨hground.position_le, hground.steps_gt, hground.ends⟩
  | lookahead number next ih => exact hb.elim
  | recording next ih => exact hb.elim
  | progress next ih => exact hb.elim

/-! ## Rules -/

/-- A rule ends if all that its sequence can invoke ends. -/
theorem enterRule_ends (hg : g.Describes rules input)
    {invoke : RuleId → Recognition → Outcome τ} (hinvoke : g.Follows input invoke)
    (hr : r < g.size) (hground : Grounded g input invoke steps (g.rule r) s) :
    (enterRule rules input invoke steps r s).Ends := by
  rw [hg.size] at hr
  have hrule := List.getElem?_eq_getElem hr
  obtain ⟨calls, hcalls, hrecorded⟩ := hg.outline r _ hrule
  simp only [enterRule, hrule]
  have hbody := Body.run_ends hg hinvoke hcalls hrecorded (s := { s with stack := r :: s.stack })
    rfl ⟨hground.position_le, hground.steps_gt, hground.ends⟩
  exact hbody.andThen fun v t _ => ⟨v, _, rfl⟩

/-- Number of steps for a rule of the given rank at a position: as many for every token that is left
as there are rules, and those for the rounds. -/
def stepsFor (g : Grammar) (input : RecognizerInput) (rank position : Nat) : Nat :=
  (input.tokens.size - position) * g.size + rank + input.tokens.size + 2

/-- At a later token, or at the same one with a smaller rank, fewer steps are needed. -/
theorem stepsFor_lt {rank rank' position position' : Nat} (hrank' : rank' < g.size)
    (hle : position' ≤ input.tokens.size)
    (h : position < position' ∨ position' = position ∧ rank' < rank) :
    stepsFor g input rank' position' < stepsFor g input rank position := by
  unfold stepsFor
  rcases h with hlt | ⟨rfl, hlt⟩
  · have hmul : (input.tokens.size - position' + 1) * g.size
        ≤ (input.tokens.size - position) * g.size :=
      Nat.mul_le_mul_right _ (by omega)
    rw [Nat.add_mul, Nat.one_mul] at hmul
    omega
  · omega

/-- **A rule ends, and is not invoked again where it runs.** The invocations that are going on began
at earlier tokens or are of rules of larger rank. -/
theorem invokeFresh_ends (hg : g.Describes rules input) {rank : RuleId → Nat}
    (hrank : ∀ r < g.size, rank r < g.size ∧ ∀ r', g.Leads r r' → rank r' < rank r)
    {active : List (RuleId × Nat)}
    (hactive : ∀ a ∈ active, a.2 < s.position ∨ s.position = a.2 ∧ rank r < rank a.1)
    (hr : r < g.size) (hle : s.position ≤ input.tokens.size)
    (hsteps : stepsFor g input (rank r) s.position ≤ steps) :
    (invokeFresh rules input steps active r s).Ends := by
  induction steps generalizing active r s with
  | zero =>
    unfold stepsFor at hsteps
    omega
  | succ steps ih =>
    rw [invokeFresh, if_neg]
    · refine enterRule_ends hg (invokeFresh_follows hg steps _) hr ⟨hle, ?_, ?_⟩
      · unfold stepsFor at hsteps
        omega
      · intro r' u hr' hu hmay
        -- The rule that is invoked is one that this rule leads to, unless a token was gone past.
        have hnext : s.position < u.position ∨ u.position = s.position ∧ rank r' < rank r := by
          rcases hmay with hlt | ⟨heq, hleading⟩
          · exact .inl hlt
          · refine .inr ⟨heq, (hrank r hr).2 r' (List.mem_filter.mpr ⟨List.mem_range.mpr hr', ?_⟩)⟩
            exact List.contains_iff_mem.mpr hleading
        refine ih ?_ hr' hu ?_
        · intro a ha
          rcases List.mem_cons.mp ha with rfl | ha
          · exact hnext
          · rcases hactive a ha with hlt | ⟨heq, hlt⟩
            · exact .inl (by omega)
            · rcases hnext with hlt' | ⟨heq', hlt'⟩
              · exact .inl (by omega)
              · exact .inr ⟨by omega, by omega⟩
        · have hlt := stepsFor_lt (hrank r' hr').1 hu hnext
          omega
    · intro hmem
      rcases hactive _ hmem with hlt | ⟨-, hlt⟩
      · exact Nat.lt_irrefl _ hlt
      · exact Nat.lt_irrefl _ hlt

/-- Reporting what is left over ends anyway. -/
theorem recognizeWith_ends (h : (invokeRule rules input steps r .start).Ends) :
    (recognizeWith rules input steps r).Ends := by
  refine h.andThen fun v t _ => ?_
  cases v with
  | none => exact ⟨none, t, rfl⟩
  | some v =>
    dsimp only
    split <;> exact ⟨some v, _, rfl⟩

end

/-! ## Whole texts -/

section

variable {τ : Type} {d : GrammarDef τ} {config : ParserConfig} {p : Parser τ}

/-- An execution that ends gives the same with more steps. -/
theorem Parser.executeWithin_of_le {n n' : Nat} (hn : n ≤ n') {text : String}
    {result : Execution τ × List String} (h : p.executeWithin n text = some result) :
    p.executeWithin n' text = some result := by
  unfold executeWithin at h ⊢
  dsimp only at h ⊢
  split at h
  · next v s hrun =>
    have hmore : p.recognizeWithin n' text (p.vocabulary.tokenize text).tokens = .finished v s :=
      recognizeWith_below p.rules _ hn p.start v s hrun
    rw [hmore]
    exact h
  · cases h

/-- The steps that an execution is given are enough for its start rule. -/
theorem Parser.stepsFor_le_steps {g : Grammar} (hsize : g.size = p.rules.length) {rank : Nat}
    (hrank : rank < g.size) (text : String) (tokens : List Token) :
    stepsFor g (p.input text tokens) rank 0 ≤ p.steps tokens := by
  have htokens : (p.input text tokens).tokens.size = tokens.length := List.size_toArray
  have hmul : 2 * g.size * (tokens.length + 2)
      = tokens.length * g.size + tokens.length * g.size + 4 * g.size := by ring
  unfold stepsFor steps
  rw [htokens, Nat.sub_zero, ← hsize, hmul]
  omega

/-- The steps that an execution is given are enough to recognize its tokens. -/
theorem GrammarDef.Accepted.recognizeWithin_ends [Inhabited τ] (hacc : d.Accepted config p)
    (hvoc : d.vocabulary.Consistent) (hstatic : d.IsStatic) (text : String) (tokens : List Token) :
    (p.recognizeWithin (p.steps tokens) text tokens).Ends := by
  have hg := hacc.describes hvoc hstatic text tokens
  have hstart := hacc.start_lt_size
  obtain ⟨rank, hrank⟩ := Grammar.exists_rank hacc.leftRecursion
  have henough := p.stepsFor_le_steps hg.size (hrank p.start hstart).1 text tokens
  have hfresh : (invokeFresh p.rules (p.input text tokens) (p.steps tokens) [] p.start
      .start).Ends :=
    invokeFresh_ends hg hrank (fun _ ha => absurd ha List.not_mem_nil) hstart (Nat.zero_le _)
      henough
  obtain ⟨v, s, h⟩ := hfresh
  exact recognizeWith_ends ⟨v, s, invokeFresh_below _ _ _ _ _ _ v s h⟩

/-- **Executing a text ends.** The steps that an execution is given are enough: it gives a result,
and the same one with more steps. All its repetitions end, since a run in which one does not is
cut off, and no rule is invoked again at the token at which an invocation of it that is still
going on began. -/
theorem Parser.execute_ends [Inhabited τ] (hvoc : d.vocabulary.Consistent) (hstatic : d.IsStatic)
    (hp : d.analyse config = .ok p) (text : String) :
    (∃ e log, p.execute text = some (e, log) ∧
      ∀ n ≥ p.steps (p.vocabulary.tokenize text).tokens,
        p.executeWithin n text = some (e, log)) ∧
      ∀ n ≥ p.steps (p.vocabulary.tokenize text).tokens, ∃ v s,
        invokeRule p.rules (p.input text (p.vocabulary.tokenize text).tokens) n p.start .start
          = .finished v s ∧
        invokeFresh p.rules (p.input text (p.vocabulary.tokenize text).tokens) n [] p.start .start
          = .finished v s := by
  have hacc := GrammarDef.accepted_of_analyse hp
  have hg := hacc.describes hvoc hstatic text (p.vocabulary.tokenize text).tokens
  have hstart : p.start < (recordRules d.rules).1.size := by
    rw [size_recordRules]
    exact hacc.start_lt
  obtain ⟨rank, hrank⟩ := Grammar.exists_rank hacc.leftRecursion
  have hfresh : ∀ n ≥ p.steps (p.vocabulary.tokenize text).tokens,
      (invokeFresh p.rules (p.input text (p.vocabulary.tokenize text).tokens) n [] p.start
        .start).Ends := by
    intro n hn
    have henough := p.stepsFor_le_steps hg.size (hrank p.start hstart).1 text
      (p.vocabulary.tokenize text).tokens
    exact invokeFresh_ends hg hrank (fun _ ha => absurd ha List.not_mem_nil) hstart
      (Nat.zero_le _) (Nat.le_trans henough hn)
  have hends : ∀ n ≥ p.steps (p.vocabulary.tokenize text).tokens, ∃ v s,
      invokeRule p.rules (p.input text (p.vocabulary.tokenize text).tokens) n p.start .start
        = .finished v s ∧
      invokeFresh p.rules (p.input text (p.vocabulary.tokenize text).tokens) n [] p.start .start
        = .finished v s := by
    intro n hn
    obtain ⟨v, s, h⟩ := hfresh n hn
    exact ⟨v, s, invokeFresh_below _ _ _ _ _ _ v s h, h⟩
  refine ⟨?_, hends⟩
  obtain ⟨v, s, hrun, -⟩ := hends _ (Nat.le_refl _)
  obtain ⟨w, t, hrecognize⟩ := recognizeWith_ends ⟨v, s, hrun⟩
  have hexecute : ∃ result, p.execute text = some result := by
    unfold execute executeWithin recognizeWithin
    dsimp only
    rw [hrecognize]
    exact ⟨_, rfl⟩
  obtain ⟨⟨e, log⟩, hresult⟩ := hexecute
  exact ⟨e, log, hresult, fun n hn => executeWithin_of_le hn hresult⟩

/-- Pairs of letters are executed to the end. -/
theorem Parser.execute_ends_pairs :
    Vocabulary.letters.Consistent ∧ GrammarDef.pairs.IsStatic ∧
      GrammarDef.pairs.analyse GrammarDef.pairsParser.config = .ok GrammarDef.pairsParser ∧
      ∃ e log, GrammarDef.pairsParser.execute "aabb" = some (e, log) := by
  obtain ⟨⟨e, log, h, -⟩, -⟩ := execute_ends Vocabulary.consistent_letters GrammarDef.isStatic_pairs
    GrammarDef.analyse_pairs "aabb"
  exact ⟨Vocabulary.consistent_letters, GrammarDef.isStatic_pairs, GrammarDef.analyse_pairs, e,
    log, h⟩

end

end Palette
