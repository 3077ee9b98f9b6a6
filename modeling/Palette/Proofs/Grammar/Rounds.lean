import Palette.Proofs.Grammar.Analysis
import Palette.Proofs.Grammar.Passage
import Palette.Proofs.Grammar.Simulation

/-!
# Rounds of repetitions

A repetition goes on only behind a round that moved on, so it begins no more rounds than it moves on
by tokens, and one more. The last token bounds how far a run can move on, as long as it takes tokens
only: the end of the input is still there when it has been taken, so a round that takes it moves on
and can do so again, forever.

How many rounds a repetition begins does not show in what it comes to. But if no more than a number
of them are begun, it makes no difference what would take the place of later ones (`BeginsAtMost`).

Main statement: `Parser.begins_at_most`.
-/

namespace Palette

/-! ## How far a run moves on -/

section

variable {α β : Type} {input : RecognizerInput} {s t : Recognition} {o : Outcome α}

/-- The run, if it ends, does not end at an earlier token than it began. -/
def Outcome.Advances (s : Recognition) (o : Outcome α) : Prop :=
  ∀ v t, o = .finished v t → s.position ≤ t.position

/-- The run, if it ends, ends among the tokens, or else no further behind them than it began. -/
def Outcome.StaysWithin (input : RecognizerInput) (s : Recognition) (o : Outcome α) : Prop :=
  ∀ v t, o = .finished v t → t.position ≤ max s.position input.tokens.size

/-- What is tried out ends where it came to, or where it began. -/
theorem position_of_speculate {run : Recognition → Outcome α} {v : Option α}
    (h : speculate run s = .finished v t) :
    ∃ w u, run { s with speculating := s.speculating + 1 } = .finished w u ∧
      (t.position = u.position ∨ t.position = s.position) := by
  obtain ⟨w, u, hu, ht⟩ := Outcome.andThen_eq_finished h
  refine ⟨w, u, hu, ?_⟩
  cases w with
  | none =>
    cases ht
    exact .inr rfl
  | some a =>
    cases ht
    exact .inl rfl

namespace Outcome.Advances

theorem finished (v : Option α) (h : s.position ≤ t.position) :
    Outcome.Advances s (.finished v t) := by
  rintro _ _ ⟨⟩
  exact h

theorem andThen {next : Option α → Recognition → Outcome β} (h : o.Advances s)
    (hnext : ∀ v t, (next v t).Advances t) : (o.andThen next).Advances s := by
  intro v u hu
  obtain ⟨w, t, ho, hu⟩ := andThen_eq_finished hu
  exact Nat.le_trans (h w t ho) (hnext w t v u hu)

theorem speculate {run : Recognition → Outcome α}
    (h : (run { s with speculating := s.speculating + 1 }).Advances s) :
    (Palette.speculate run s).Advances s := by
  intro v t ht
  obtain ⟨w, u, hu, hpos⟩ := position_of_speculate ht
  have hge := h w u hu
  omega

end Outcome.Advances

theorem RecognizerInput.position_le_consume (input : RecognizerInput) (s : Recognition)
    (kind : TokenKind) : s.position ≤ (input.consume s kind).2.position := by
  unfold consume
  split
  · exact Nat.le_succ _
  · split
    · exact Nat.le_add_right _ 2
    · exact Nat.le_refl _

/-- **No run moves back.** -/
theorem advances (input : RecognizerInput) :
    Simulation input input fun _ s o _ => o.Advances s where
  cutOff _ := nofun
  stay v _ := .finished v (Nat.le_refl _)
  note v _ _ := .finished v (Nat.le_refl _)
  report v _ _ _ := .finished v (Nat.le_refl _)
  consume s kind := .finished _ (input.position_le_consume s kind)
  andThen := .andThen
  speculate := .speculate
  enter inside := .andThen inside fun v _ => .finished v (Nat.le_refl _)

theorem Body.run_advances {τ : Type} {find : String → Option RuleId}
    {invoke : RuleId → Recognition → Outcome τ} (h : ∀ r s, (invoke r s).Advances s) (steps : Nat)
    (b : Body τ α) (s : Recognition) : (b.run input find invoke steps s).Advances s :=
  @Simulation.run input input _ τ (advances input) (.refl input) find invoke invoke h steps α b s

theorem invokeRule_advances {τ : Type} (rules : List (RuleDef τ)) (input : RecognizerInput)
    (steps : Nat) (r : RuleId) (s : Recognition) : (invokeRule rules input steps r s).Advances s :=
  (advances input).invokeRule (.refl input) rules steps r s

namespace Outcome.StaysWithin

theorem finished (v : Option α) (h : t.position ≤ max s.position input.tokens.size) :
    Outcome.StaysWithin input s (.finished v t) := by
  rintro _ _ ⟨⟩
  exact h

theorem stay (v : Option α) (s : Recognition) : Outcome.StaysWithin input s (.finished v s) :=
  .finished v (Nat.le_max_left _ _)

theorem andThen {next : Option α → Recognition → Outcome β} (h : o.StaysWithin input s)
    (hnext : ∀ v t, (next v t).StaysWithin input t) : (o.andThen next).StaysWithin input s := by
  intro v u hu
  obtain ⟨w, t, ho, hu⟩ := andThen_eq_finished hu
  have hfirst := h w t ho
  have hrest := hnext w t v u hu
  omega

theorem speculate {run : Recognition → Outcome α}
    (h : (run { s with speculating := s.speculating + 1 }).StaysWithin input s) :
    (Palette.speculate run s).StaysWithin input s := by
  intro v t ht
  obtain ⟨w, u, hu, hpos⟩ := position_of_speculate ht
  have hle := h w u hu
  omega

theorem repeatRounds {σ : Type} {site : Site} {round : σ → Recognition → Outcome σ}
    (h : ∀ a s, (round a s).StaysWithin input s) (steps : Nat) (a : σ) (s : Recognition) :
    (Palette.repeatRounds input site round steps a s).StaysWithin input s := by
  induction steps generalizing a s with
  | zero => exact nofun
  | succ steps ih =>
    simp only [Palette.repeatRounds]
    split
    · split
      · refine (h a s).andThen fun v t => ?_
        cases v with
        | none => exact stay _ t
        | some a' =>
          dsimp only
          split
          · exact stay _ t
          · exact ih a' t
      · exact stay _ s
    · refine andThen (speculate (h a _)) fun v t => ?_
      cases v with
      | none => exact stay _ t
      | some a' =>
        dsimp only
        split
        · exact stay _ t
        · exact ih a' t

theorem firstOf {ι : Type} {run : ι → Recognition → Outcome α}
    (h : ∀ i s, (run i s).StaysWithin input s) (l : List ι) (s : Recognition) :
    (Palette.firstOf run l s).StaysWithin input s := by
  induction l generalizing s with
  | nil => exact stay _ s
  | cons i rest ih =>
    refine andThen (speculate (h i _)) fun v t => ?_
    cases v with
    | none => exact ih t
    | some a => exact stay _ t

end Outcome.StaysWithin

/-- A kind other than the end of the input is taken from the tokens. -/
theorem RecognizerInput.staysWithin_consume (hvoc : input.vocabulary.Consistent) {kind : TokenKind}
    (hkind : kind ≠ .endOfInput) (s : Recognition) :
    Outcome.StaysWithin input s
      (.finished (input.consume s kind).1 (input.consume s kind).2) := by
  have hlt (number : Nat) (h : input.fitsAhead s number kind = true) :
      s.position + (number - 1) < input.tokens.size := by
    have hget := getElem?_of_fitsAhead hkind (fun _ => hvoc.eq_of_fits_endOfInput) h
    exact Array.length_toList ▸ (List.getElem?_eq_some_iff.mp hget).1
  refine .finished _ ?_
  unfold consume
  split
  · next hfits =>
    have hnext := hlt 1 hfits
    dsimp only
    omega
  · split
    · next hfits =>
      have hnext := hlt 2 (Bool.and_eq_true_iff.mp hfits).2
      dsimp only
      omega
    · exact Nat.le_max_left _ _

end

/-! ## Bodies that take tokens only -/

/-- Run on tokens, the body never asks for the end of the input. -/
def Body.TakesTokens {τ α : Type} : Body τ α → Prop
  | .done _ | .fail => True
  | .consume kind next => kind ≠ .endOfInput ∧ ∀ t, (next t).TakesTokens
  | .subrule _ next => ∀ v, (next v).TakesTokens
  | .option _ body next => body.TakesTokens ∧ ∀ r, (next r).TakesTokens
  | .many _ _ round next => (∀ a, (round a).TakesTokens) ∧ ∀ r, (next r).TakesTokens
  | .atLeastOne _ _ round next => (∀ a, (round a).TakesTokens) ∧ ∀ r, (next r).TakesTokens
  | .choose _ _ alternatives _ next =>
    (∀ i, (alternatives i).TakesTokens) ∧ ∀ r, (next r).TakesTokens
  | .action _ next => next.TakesTokens
  | .lookahead _ next => ∀ t, (next t).TakesTokens
  | .recording next => (next false).TakesTokens
  | .progress next => ∀ p, (next p).TakesTokens

section

variable {τ : Type} {input : RecognizerInput} {find : String → Option RuleId}
  {invoke : RuleId → Recognition → Outcome τ} {steps : Nat}

/-- **A body that takes tokens only ends no further than behind the last one.** -/
theorem Body.run_staysWithin (hvoc : input.vocabulary.Consistent)
    (hinvoke : ∀ r s, (invoke r s).StaysWithin input s) {α : Type} {b : Body τ α}
    (hb : b.TakesTokens) (s : Recognition) :
    (b.run input find invoke steps s).StaysWithin input s := by
  induction b generalizing s with
  | done a => exact .stay _ s
  | fail => exact .stay _ s
  | consume kind next ih =>
    exact (input.staysWithin_consume hvoc hb.1 s).andThen fun t => ih t (hb.2 t)
  | subrule name next ih =>
    simp only [run]
    split
    · exact ih none (hb none) _
    · exact (hinvoke _ s).andThen fun v => ih v (hb v)
  | option site body next ihbody ih =>
    simp only [run]
    split
    · split
      · exact (ihbody hb.1 s).andThen fun r => ih _ (hb.2 _)
      · exact ih _ (hb.2 _) s
    · exact (Outcome.StaysWithin.speculate (ihbody hb.1 _)).andThen fun r => ih _ (hb.2 _)
  | many site initial round next ihround ih =>
    exact (Outcome.StaysWithin.repeatRounds (fun a => ihround a (hb.1 a)) steps initial s).andThen
      fun r => ih r (hb.2 r)
  | atLeastOne site initial round next ihround ih =>
    simp only [run]
    split
    · exact ih none (hb.2 none) _
    · refine (ihround initial (hb.1 initial) s).andThen fun v t => ?_
      cases v with
      | none => exact ih none (hb.2 none) t
      | some a =>
        exact (Outcome.StaysWithin.repeatRounds (fun a => ihround a (hb.1 a)) steps a t).andThen
          fun r => ih r (hb.2 r)
  | choose site count alternatives blank next ihalt ih =>
    simp only [run]
    split
    · split
      · exact (ihalt _ (hb.1 _) s).andThen fun r => ih r (hb.2 r)
      · exact ih none (hb.2 none) _
    · refine (Outcome.StaysWithin.firstOf (fun i => ihalt i (hb.1 i)) _ s).andThen fun v t => ?_
      cases v with
      | none => exact ih none (hb.2 none) _
      | some r => exact ih (some r) (hb.2 (some r)) t
  | action event next ih => exact ih hb _
  | lookahead number next ih => exact ih _ (hb _) s
  | recording next ih => exact ih false hb s
  | progress next ih => exact ih _ (hb _) s

/-- **A rule ends no further than behind the last token** if all rules take tokens only. -/
theorem invokeRule_staysWithin {rules : List (RuleDef τ)} (hvoc : input.vocabulary.Consistent)
    (hrules : ∀ rule ∈ rules, rule.body.TakesTokens) (steps : Nat) (r : RuleId) (s : Recognition) :
    (invokeRule rules input steps r s).StaysWithin input s := by
  induction steps generalizing r s with
  | zero => exact nofun
  | succ steps ih =>
    simp only [invokeRule, enterRule]
    split
    · exact nofun
    · next rule hrule =>
      have hrun : (rule.body.run input (ruleId? rules) (invokeRule rules input steps) steps
          { s with stack := r :: s.stack }).StaysWithin input s :=
        Body.run_staysWithin hvoc ih (hrules rule (List.mem_of_getElem? hrule)) _
      exact hrun.andThen fun v t => .finished v (Nat.le_max_left _ _)

end

/-! ## Counting rounds -/

section

variable {σ : Type}

/-- The first `bound` rounds, and `other` ones in the place of those behind them; the value counts
them all. -/
def firstRounds (bound : Nat) (round other : σ → Recognition → Outcome σ) :
    σ × Nat → Recognition → Outcome (σ × Nat)
  | (a, k), s =>
    ((if k < bound then round else other) a s).andThen fun v t => .finished (v.map (·, k + 1)) t

/-- The outcome without the number of rounds. -/
def Outcome.uncounted (o : Outcome (σ × Nat)) : Outcome σ :=
  o.andThen fun v t => .finished (v.map Prod.fst) t

/-- A way to repeat rounds, with values of any type. -/
abbrev Repetition : Type 1 :=
  (ρ : Type) → (ρ → Recognition → Outcome ρ) → ρ → Recognition → Outcome ρ

/-- No more than `bound` rounds are begun: whatever took the place of later ones, the repetition
would come to the same. -/
def BeginsAtMost (bound : Nat) (repetition : Repetition) (round : σ → Recognition → Outcome σ)
    (a : σ) (s : Recognition) : Prop :=
  ∀ other, (repetition (σ × Nat) (firstRounds bound round other) (a, 0) s).uncounted
    = repetition σ round a s

/-- What a repetition does next: it ends with the value it has, which is on the left, or it runs a
round, which comes to one on the right. -/
def nextRound (input : RecognizerInput) (site : Site) (round : σ → Recognition → Outcome σ)
    (a : σ) (s : Recognition) : Outcome (σ ⊕ σ) :=
  match input.table? s site with
  | some table =>
    if input.enters s table then (round a s).andThen fun v t => .finished (v.map .inr) t
    else .finished (some (.inl a)) s
  | none => (speculate (round a) s).andThen fun v t => .finished (some (v.elim (.inl a) .inr)) t

/-- One round, and then more of them as long as the tokens ahead can start one. -/
def repeatAfterOne (input : RecognizerInput) (site : Site) (round : σ → Recognition → Outcome σ)
    (steps : Nat) (a : σ) (s : Recognition) : Outcome σ :=
  (round a s).andThen fun
    | none, t => .finished none t
    | some a', t => repeatRounds input site round steps a' t

variable {input : RecognizerInput} {site : Site} {round other : σ → Recognition → Outcome σ}
  {steps bound k : Nat} {a : σ} {s : Recognition}

/-- **A repetition goes on behind a round that moved.** -/
theorem repeatRounds_succ (input : RecognizerInput) (site : Site)
    (round : σ → Recognition → Outcome σ) (steps : Nat) (a : σ) (s : Recognition) :
    repeatRounds input site round (steps + 1) a s = (nextRound input site round a s).andThen fun
      | none, t => .finished none t
      | some (.inl a'), t => .finished (some a') t
      | some (.inr a'), t =>
        if t.position = s.position then .finished (some a') t
        else repeatRounds input site round steps a' t := by
  cases htable : input.table? s site with
  | some table =>
    simp only [repeatRounds, nextRound, htable]
    split
    · rw [Outcome.andThen_assoc]
      congr 1
      funext v t
      cases v <;> rfl
    · rfl
  | none =>
    simp only [repeatRounds, nextRound, htable, Outcome.andThen_assoc]
    congr 1
    funext v t
    cases v <;> rfl

/-- Where at least one round is asked for, the first one is refused, or more may follow it. -/
theorem Body.run_atLeastOne {τ α : Type} {find : String → Option RuleId}
    {invoke : RuleId → Recognition → Outcome τ} {round : σ → Body τ σ}
    (next : Option σ → Body τ α) (h : (input.table? s site).filter (!input.enters s ·) = none) :
    (atLeastOne site a round next).run input find invoke steps s
      = (repeatAfterOne input site (fun a s => (round a).run input find invoke steps s) steps a
          s).andThen fun r s => (next r).run input find invoke steps s := by
  simp only [run, h, repeatAfterOne, Outcome.andThen_assoc]
  congr 1
  funext v t
  cases v <;> rfl

theorem repeatRounds_advances (h : ∀ a s, (round a s).Advances s) (steps : Nat) (a : σ)
    (s : Recognition) : (repeatRounds input site round steps a s).Advances s :=
  @Simulation.repeatRounds input input _ (advances input) (.refl input) σ site round round h steps
    a s

theorem nextRound_advances (h : ∀ a s, (round a s).Advances s) (a : σ) (s : Recognition) :
    (nextRound input site round a s).Advances s := by
  unfold nextRound
  split
  · split
    · exact (h a s).andThen fun v t => .finished _ (Nat.le_refl _)
    · exact .finished _ (Nat.le_refl _)
  · exact (Outcome.Advances.speculate (h a _)).andThen fun v t => .finished _ (Nat.le_refl _)

theorem nextRound_staysWithin (h : ∀ a s, (round a s).StaysWithin input s) (a : σ)
    (s : Recognition) : (nextRound input site round a s).StaysWithin input s := by
  unfold nextRound
  split
  · split
    · exact (h a s).andThen fun v t => .stay _ t
    · exact .stay _ s
  · exact (Outcome.StaysWithin.speculate (h a _)).andThen fun v t => .stay _ t

theorem nextRound_ends (h : ∀ s, (round a s).Ends) (s : Recognition) :
    (nextRound input site round a s).Ends := by
  unfold nextRound
  split
  · split
    · exact (h s).andThen fun v t _ => ⟨_, t, rfl⟩
    · exact ⟨_, s, rfl⟩
  · have htried : (speculate (round a) s).Ends :=
      (h _).andThen fun v t _ => by cases v <;> exact ⟨_, _, rfl⟩
    exact htried.andThen fun v t _ => ⟨_, t, rfl⟩

/-- One of the first rounds is run as it is, and counted. -/
theorem nextRound_firstRounds (hk : k < bound) :
    nextRound input site (firstRounds bound round other) (a, k) s
      = (nextRound input site round a s).andThen fun v t =>
        .finished (v.map (Sum.map (·, k) (·, k + 1))) t := by
  have hround : firstRounds bound round other (a, k)
      = fun s => (round a s).andThen fun v t => .finished (v.map (·, k + 1)) t := by
    funext s
    simp only [firstRounds, if_pos hk]
  unfold nextRound
  rw [hround]
  split
  · split
    · rw [Outcome.andThen_assoc, Outcome.andThen_assoc]
      congr 1
      funext v t
      cases v <;> rfl
    · rfl
  · simp only [speculate, Outcome.andThen_assoc]
    congr 1
    funext v t
    cases v <;> rfl

/-- Rounds that stay within the tokens are begun no more often than there are tokens left, and once
more. -/
theorem uncounted_repeatRounds (hadvances : ∀ a s, (round a s).Advances s)
    (hwithin : ∀ a s, (round a s).StaysWithin input s)
    (hk : k + (input.tokens.size - s.position) < bound) :
    (repeatRounds input site (firstRounds bound round other) steps (a, k) s).uncounted
      = repeatRounds input site round steps a s := by
  induction steps generalizing a k s with
  | zero => rfl
  | succ steps ih =>
    rw [repeatRounds_succ, repeatRounds_succ, nextRound_firstRounds (by omega)]
    cases hnext : nextRound input site round a s with
    | unfinished => rfl
    | finished v t =>
      rcases v with - | a' | a'
      · rfl
      · rfl
      · have hge := nextRound_advances hadvances a s _ t hnext
        have hle := nextRound_staysWithin hwithin a s _ t hnext
        show (if t.position = s.position then _ else _ : Outcome (σ × Nat)).uncounted = _
        dsimp only [Outcome.andThen]
        split
        · rfl
        · exact ih (by omega)

/-- A repetition that ends begins no more rounds than it moved on by tokens, and one more. -/
theorem uncounted_of_finished (hadvances : ∀ a s, (round a s).Advances s) {v : Option σ}
    {t : Recognition} (h : repeatRounds input site round steps a s = .finished v t)
    (hk : k + (t.position - s.position) < bound) :
    (repeatRounds input site (firstRounds bound round other) steps (a, k) s).uncounted
      = repeatRounds input site round steps a s := by
  induction steps generalizing a k s with
  | zero => rfl
  | succ steps ih =>
    rw [repeatRounds_succ] at h
    rw [repeatRounds_succ, repeatRounds_succ, nextRound_firstRounds (by omega)]
    cases hnext : nextRound input site round a s with
    | unfinished => rfl
    | finished w u =>
      rw [hnext] at h
      rcases w with - | a' | a'
      · rfl
      · rfl
      · have hge := nextRound_advances hadvances a s _ u hnext
        show (if u.position = s.position then _ else _ : Outcome (σ × Nat)).uncounted = _
        dsimp only [Outcome.andThen] at h ⊢
        split
        · rfl
        · next hmoved =>
          rw [if_neg hmoved] at h
          have hrest := repeatRounds_advances hadvances steps a' u v t h
          exact ih h (by omega)

/-- Rounds that end and stay within the tokens come to an end. -/
theorem repeatRounds_ends_of_within (hadvances : ∀ a s, (round a s).Advances s)
    (hwithin : ∀ a s, (round a s).StaysWithin input s) (hends : ∀ a s, (round a s).Ends)
    (hsteps : input.tokens.size - s.position < steps) :
    (repeatRounds input site round steps a s).Ends := by
  induction steps generalizing a s with
  | zero => omega
  | succ steps ih =>
    rw [repeatRounds_succ]
    refine (nextRound_ends (hends a) s).andThen fun v t hnext => ?_
    rcases v with - | a' | a'
    · exact ⟨none, t, rfl⟩
    · exact ⟨some a', t, rfl⟩
    · have hge := nextRound_advances hadvances a s _ t hnext
      have hle := nextRound_staysWithin hwithin a s _ t hnext
      dsimp only
      split
      · exact ⟨some a', t, rfl⟩
      · exact ih (by omega)

/-- A first round counts as one. -/
theorem uncounted_repeatAfterOne (hbound : 0 < bound)
    (hrest : ∀ a' t, round a s = .finished (some a') t →
      (repeatRounds input site (firstRounds bound round other) steps (a', 1) t).uncounted
        = repeatRounds input site round steps a' t) :
    (repeatAfterOne input site (firstRounds bound round other) steps (a, 0) s).uncounted
      = repeatAfterOne input site round steps a s := by
  simp only [repeatAfterOne, firstRounds, if_pos hbound]
  cases hfirst : round a s with
  | unfinished => rfl
  | finished v t =>
    cases v with
    | none => rfl
    | some a' => exact hrest a' t hfirst

end

/-! ## Calls of repetitions -/

namespace Parser

variable {τ : Type} [Inhabited τ] {d : GrammarDef τ} {config : ParserConfig} {p : Parser τ}

/--
**Repetitions make progress.**

Whatever the rounds do, a repetition that comes to an end has begun no more of them than it moved on
by tokens, and one more; where one round at least is asked for, another one more.

If rules and rounds take tokens only, a repetition begins no more rounds than tokens were left when
it started, and one more, or another one more. So it ends if its rounds do.
-/
theorem begins_at_most (hvoc : d.vocabulary.Consistent) (hp : d.analyse config = .ok p)
    (text : String) {σ : Type} (site : Site) (round : σ → Body τ σ) (a : σ) (s : Recognition)
    (steps : Nat) :
    let input := p.input text (p.vocabulary.tokenize text).tokens
    let rounds : σ → Recognition → Outcome σ := fun a s =>
      (round a).run input (ruleId? p.rules) (invokeRule p.rules input steps) steps s
    let many : Repetition := fun _ round => repeatRounds input site round steps
    let atLeastOne : Repetition := fun _ round => repeatAfterOne input site round steps
    let left := input.tokens.size - s.position
    ((∀ v t, many σ rounds a s = .finished v t →
        BeginsAtMost (t.position - s.position + 1) many rounds a s) ∧
      ∀ v t, atLeastOne σ rounds a s = .finished v t →
        BeginsAtMost (t.position - s.position + 2) atLeastOne rounds a s) ∧
    ((∀ rule ∈ d.rules, rule.body.TakesTokens) → (∀ a, (round a).TakesTokens) →
      BeginsAtMost (left + 1) many rounds a s ∧ BeginsAtMost (left + 2) atLeastOne rounds a s ∧
        (left < steps → (∀ a u, (rounds a u).Ends) →
          (many σ rounds a s).Ends ∧ (atLeastOne σ rounds a s).Ends)) := by
  intro input rounds many atLeastOne left
  have hacc := GrammarDef.accepted_of_analyse hp
  have hadvances : ∀ a s, (rounds a s).Advances s := fun a s =>
    Body.run_advances (invokeRule_advances p.rules input steps) steps (round a) s
  refine ⟨⟨fun v t h other => uncounted_of_finished hadvances h (by omega), ?_⟩, ?_⟩
  · intro v t h other
    refine uncounted_repeatAfterOne (by omega) fun a' u hfirst => ?_
    have hrest : repeatRounds input site rounds steps a' u = .finished v t := by
      simp only [atLeastOne, repeatAfterOne, hfirst] at h
      exact h
    have hge := hadvances a s _ u hfirst
    have hge' := repeatRounds_advances hadvances steps a' u v t hrest
    exact uncounted_of_finished hadvances hrest (by omega)
  · intro hrules hround
    rw [← hacc.vocabulary] at hvoc
    rw [← hacc.rules] at hrules
    have hwithin : ∀ a s, (rounds a s).StaysWithin input s := fun a s =>
      Body.run_staysWithin hvoc (invokeRule_staysWithin hvoc hrules steps) (hround a) s
    refine ⟨fun other => uncounted_repeatRounds hadvances hwithin (by omega), fun other => ?_, ?_⟩
    · refine uncounted_repeatAfterOne (by omega) fun a' t hfirst => ?_
      have hge := hadvances a s _ t hfirst
      exact uncounted_repeatRounds hadvances hwithin (by omega)
    · intro hsteps hends
      refine ⟨repeatRounds_ends_of_within hadvances hwithin hends hsteps, ?_⟩
      refine (hends a s).andThen fun v t hfirst => ?_
      have hge := hadvances a s v t hfirst
      cases v with
      | none => exact ⟨none, t, rfl⟩
      | some a' => exact repeatRounds_ends_of_within hadvances hwithin hends (by omega)

end Parser

namespace GrammarDef

theorem takesTokens_pairs : ∀ rule ∈ pairs.rules, rule.body.TakesTokens := by
  intro rule hrule
  simp only [pairs, List.mem_cons, List.not_mem_nil, or_false] at hrule
  rcases hrule with rfl | rfl
  · exact ⟨fun _ v => by cases v <;> trivial, fun r => by cases r <;> trivial⟩
  · refine ⟨by decide, fun t => ?_⟩
    cases t with
    | none => trivial
    | some t => exact ⟨by decide, fun t => by cases t <;> trivial⟩

/-- In a text of four letters, no more than five rounds are begun. -/
theorem begins_at_most_pairs :
    let input := pairsParser.input "aaaa" (Vocabulary.letters.tokenize "aaaa").tokens
    let round : Body Unit Unit := .consume ⟨0⟩ fun _ => .done ()
    let rounds : Unit → Recognition → Outcome Unit := fun _ s =>
      round.run input (ruleId? pairs.rules) (invokeRule pairs.rules input 9) 9 s
    let s : Recognition := { Recognition.start with stack := [0] }
    Vocabulary.letters.Consistent ∧ pairs.analyse pairsParser.config = .ok pairsParser ∧
      (∀ rule ∈ pairs.rules, rule.body.TakesTokens) ∧ round.TakesTokens ∧
      (∀ a u, (rounds a u).Ends) ∧ input.tokens.size - s.position = 4 ∧
      BeginsAtMost (4 + 1) (fun _ round => repeatRounds input 0 round 9) rounds () s ∧
      (repeatRounds input 0 rounds 9 () s).Ends := by
  intro input round rounds s
  have hround : round.TakesTokens := ⟨by decide, fun _ => trivial⟩
  have hends : ∀ a u, (rounds a u).Ends := fun _ u => ⟨some (), (input.consume u ⟨0⟩).2, rfl⟩
  have hleft : input.tokens.size - s.position = 4 := by cbv
  have hfew : input.tokens.size - s.position < 9 := by
    rw [hleft]
    decide
  obtain ⟨-, hbound⟩ := Parser.begins_at_most Vocabulary.consistent_letters analyse_pairs "aaaa" 0
    (fun _ => round) () s 9
  obtain ⟨hmany, -, hmanyEnds⟩ := hbound takesTokens_pairs fun _ => hround
  exact ⟨Vocabulary.consistent_letters, analyse_pairs, takesTokens_pairs, hround, hends, hleft,
    hleft ▸ hmany, (hmanyEnds hfew hends).1⟩

/-! ## Taking the end of the input -/

/-- Takes the end of the input. -/
def takeEnd : Body Unit Unit :=
  .consume .endOfInput fun
    | some _ => .done ()
    | none => .fail

/-- The end of the input, any number of times. -/
def ends : GrammarDef Unit :=
  { vocabulary := Vocabulary.letters, rules := [⟨"ends", Body.loop 0 () fun _ => takeEnd⟩] }

/-- The parser of ends, with one token of lookahead and without recovery. -/
def endsParser : Parser Unit :=
  { vocabulary := Vocabulary.letters, rules := ends.rules,
    lookahead := [(⟨0, 0⟩, [[[.endOfInput]]])],
    start := 0, config := { startRule := none, maxLookahead := 1, recovery := false } }

theorem analyse_ends : ends.analyse endsParser.config = .ok endsParser := by cbv

/-- What the parser of ends reads of the empty text. -/
def endsInput : RecognizerInput := endsParser.input "" []

theorem fitsAhead_endsInput (s : Recognition) : endsInput.fitsAhead s 1 .endOfInput = true := by
  have hahead : endsInput.ahead s 1 = .endOfInput 0 := by
    simp [RecognizerInput.ahead, endsInput, Parser.input]
  rw [RecognizerInput.fitsAhead, hahead]
  rfl

theorem run_takeEnd (find : String → Option RuleId) (invoke : RuleId → Recognition → Outcome Unit)
    (steps : Nat) (s : Recognition) :
    takeEnd.run endsInput find invoke steps s
      = .finished (some ()) { s with position := s.position + 1 } := by
  have hconsume : endsInput.consume s .endOfInput
      = (some (endsInput.ahead s 1), { s with position := s.position + 1 }) :=
    if_pos (fitsAhead_endsInput s)
  simp only [takeEnd, Body.run, hconsume]

/-- Rounds that take the end of the input go on and on. -/
theorem repeatRounds_takeEnd (find : String → Option RuleId)
    (invoke : RuleId → Recognition → Outcome Unit) (inner steps : Nat) {s : Recognition}
    (hs : s.stack = [0]) :
    repeatRounds endsInput 0 (fun _ => takeEnd.run endsInput find invoke inner) steps () s
      = .unfinished := by
  induction steps generalizing s with
  | zero => rfl
  | succ steps ih =>
    have htable : endsInput.table? s 0 = some [[[.endOfInput]]] := by
      rw [RecognizerInput.table?, hs]
      rfl
    have henters : endsInput.enters s [[[.endOfInput]]] = true := by
      simp [RecognizerInput.enters, RecognizerInput.predict, RecognizerInput.consider,
        RecognizerInput.matched, RecognizerInput.matchedFrom, RecognizerInput.deeper,
        fitsAhead_endsInput]
    simp only [repeatRounds, htable, henters, if_true, run_takeEnd, Outcome.andThen]
    rw [if_neg (by simp)]
    exact ih hs

theorem invokeRule_takeEnd (steps : Nat) :
    invokeRule ends.rules endsInput steps 0 .start = .unfinished := by
  cases steps with
  | zero => rfl
  | succ steps =>
    show Outcome.andThen (Outcome.andThen (repeatRounds endsInput 0
      (fun _ => takeEnd.run endsInput (ruleId? ends.rules) (invokeRule ends.rules endsInput steps)
        steps) steps () { Recognition.start with stack := [0] }) _) _ = _
    rw [repeatRounds_takeEnd _ _ steps steps rfl]
    rfl

/-- **A repetition that takes the end of the input goes on forever.** Each of its rounds comes to an
end, and there is as much left as before. -/
theorem executeWithin_ends_eq_none :
    ends.analyse endsParser.config = .ok endsParser ∧
      (∀ steps s, (takeEnd.run endsInput (ruleId? ends.rules)
        (invokeRule ends.rules endsInput steps) steps s).Ends) ∧
      ∀ steps, endsParser.executeWithin steps "" = none := by
  refine ⟨analyse_ends, fun steps s => ⟨_, _, run_takeEnd _ _ steps s⟩, fun steps => ?_⟩
  have htokenize : endsParser.vocabulary.tokenize "" = ⟨[], []⟩ := by cbv
  have hrun : endsParser.recognizeWithin steps "" [] = .unfinished := by
    show (invokeRule ends.rules endsInput steps 0 .start).andThen _ = _
    rw [invokeRule_takeEnd]
    rfl
  simp only [Parser.executeWithin, htokenize, hrun]

end GrammarDef

end Palette
