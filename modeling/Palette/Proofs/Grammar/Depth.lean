import Palette.Proofs.Grammar.Expectation
import Palette.Proofs.Grammar.Simulation
import Palette.Proofs.Grammar.Soundness
import Palette.Proofs.Grammar.Tables
import Palette.Proofs.Lexer.Kinds

/-!
# More lookahead than a grammar needs

A grammar for which some depth of lookahead suffices is accepted with every larger one. The paths
within the smaller depth are those within the larger one, cut; so two alternatives that clash when
more is looked at already clashed before.

In a grammar for which one token of lookahead suffices, the next token already tells which
alternative is meant: two of them never start with kinds that the same token fits, and at most one
of them may be empty. Longer paths start as the short ones do, so they are decided alike, and since
they are in order, messages expect the same kinds in the same order. Runs that decide alike are
equal, so nothing shows how deep the lookahead is.

Main statements: `GrammarDef.analyse_of_le` and `GrammarDef.lookahead_unobservable`.
-/

namespace Palette

/-! ## Equal runs -/

/-- Recognizers that decide alike and recover alike do the same. -/
theorem RecognizerInput.Alike.simulation {input input' : RecognizerInput}
    (h : input.Alike input') (hrecovery : input'.recovery = input.recovery) :
    Simulation input input' fun _ _ o o' => o = o' where
  cutOff _ := rfl
  stay _ _ := rfl
  note _ _ _ := rfl
  report _ _ _ _ := rfl
  consume s kind := by
    simp only [consume, h.fitsAhead, h.ahead, h.report, h.found, h.vocabulary, hrecovery]
  andThen first rest := by
    subst first
    exact congrArg _ (funext fun v => funext fun t => rest v t)
  speculate tried := congrArg (Outcome.andThen · _) tried
  enter inside := congrArg (Outcome.andThen · _) inside

/-! ## One token tells -/

/-- The token at hand, if there is one, is of a matchable kind. -/
def RecognizerInput.Matchable (input : RecognizerInput) : Prop :=
  ∀ t ∈ input.tokens, t.kind ∈ input.vocabulary.matchable

namespace RecognizerInput

variable {input : RecognizerInput} {s : Recognition} {short long : DecisionTable}

theorem Matchable.kind_ahead (h : input.Matchable) (s : Recognition) (number : Nat) :
    (input.ahead s number).kind ∈ input.vocabulary.matchable ∨
      (input.ahead s number).kind = .endOfInput := by
  unfold ahead
  cases ht : input.tokens[s.position + (number - 1)]? with
  | none => exact .inr rfl
  | some t => exact .inl (h t (Array.mem_of_getElem? ht))

/-- Only one alternative starts with the next token if one token is enough to tell them apart. -/
theorem starting_unique (hvoc : input.vocabulary.Consistent) (htokens : input.Matchable)
    (h : Deeper input.vocabulary 1 short long) {i j : Nat} (hi : input.Starting s short i)
    (hj : input.Starting s short j) : i = j := by
  have hlt {i j : Nat} (hi : input.Starting s short i) (hj : input.Starting s short j) :
      ¬i < j := by
    intro hlt
    obtain ⟨left, hleft, _, hp, a, p, rfl, ha⟩ := hi
    obtain ⟨right, hright, _, hq, b, q, rfl, hb⟩ := hj
    obtain ⟨_, -, hcut⟩ := exists_right_of_forall₂ h.truncates hleft
    obtain ⟨_, -, hcut'⟩ := exists_right_of_forall₂ h.truncates hright
    obtain rfl : p = [] := by simpa using hcut.length_le _ hp
    obtain rfl : q = [] := by simpa using hcut'.length_le _ hq
    have hapart := h.unambiguous i j left right hlt hleft hright _ hp _ hq
    have hoverlap := hvoc.overlaps_of_fits (htokens.kind_ahead s 1) ha hb
    simp [Vocabulary.pathsOverlap, hoverlap] at hapart
  have hij := hlt hi hj
  have hji := hlt hj hi
  omega

/-- Longer paths start as the short ones do. -/
theorem starting_iff {budget : Nat} (hbudget : 0 < budget)
    (h : List.Forall₂ (Truncates budget) short long) (i : Nat) :
    input.Starting s short i ↔ input.Starting s long i := by
  constructor
  · rintro ⟨paths, hget, _, hmem, kind, rest, rfl, hfits⟩
    obtain ⟨paths', hget', hcut⟩ := exists_right_of_forall₂ h hget
    obtain ⟨w, hw, htake⟩ := hcut.exists_longer _ hmem
    cases w with
    | nil => simp at htake
    | cons kind' w =>
      cases budget with
      | zero => cases htake
      | succ budget =>
        cases htake
        exact ⟨paths', hget', _, hw, kind, w, rfl, hfits⟩
  · rintro ⟨paths', hget', _, hmem, kind, rest, rfl, hfits⟩
    obtain ⟨paths, hget, hcut⟩ := exists_left_of_forall₂ h hget'
    cases budget with
    | zero => exact absurd hbudget (Nat.lt_irrefl 0)
    | succ budget => exact ⟨paths, hget, _, hcut.take_mem _ hmem, kind, _, rfl, hfits⟩

theorem mayBeEmpty_iff {budget : Nat} (hbudget : 0 < budget)
    (h : List.Forall₂ (Truncates budget) short long) (i : Nat) :
    MayBeEmpty short i ↔ MayBeEmpty long i := by
  constructor
  · rintro ⟨paths, hget, hmem⟩
    obtain ⟨paths', hget', hcut⟩ := exists_right_of_forall₂ h hget
    exact ⟨paths', hget', (hcut.nil_mem_iff hbudget).mp hmem⟩
  · rintro ⟨paths', hget', hmem⟩
    obtain ⟨paths, hget, hcut⟩ := exists_left_of_forall₂ h hget'
    exact ⟨paths, hget, (hcut.nil_mem_iff hbudget).mpr hmem⟩

/-- **Where one token tells, more of them are decided alike.** -/
theorem predict_deeper (hvoc : input.vocabulary.Consistent) (htokens : input.Matchable)
    (h : Deeper input.vocabulary 1 short long) : input.predict s long = input.predict s short :=
  predict_eq_of_iff (starting_iff Nat.one_pos h.truncates) (mayBeEmpty_iff Nat.one_pos h.truncates)
    (fun _ _ => starting_unique hvoc htokens h) fun _ _ => mayBeEmpty_unique h.unambiguous

end RecognizerInput

/-- Paths that fit together start with the same kinds. -/
theorem Truncates.mem_firstKinds_iff {budget : Nat} {short long : List Path}
    (h : Truncates budget short long) (hbudget : 0 < budget) (kind : TokenKind) :
    kind ∈ firstKinds short ↔ kind ∈ firstKinds long := by
  obtain ⟨budget, rfl⟩ := Nat.exists_eq_succ_of_ne_zero hbudget.ne'
  rw [mem_firstKinds, mem_firstKinds]
  constructor
  · rintro ⟨rest, hmem⟩
    obtain ⟨w, hw, htake⟩ := h.exists_longer _ hmem
    cases w with
    | nil => simp at htake
    | cons kind' w =>
      cases htake
      exact ⟨w, hw⟩
  · exact fun ⟨rest, hmem⟩ => ⟨rest.take budget, h.take_mem _ hmem⟩

/-- Tables that fit together expect the same. -/
theorem RecognizerInput.expected_deeper {input input' : RecognizerInput}
    (hvocabulary : input'.vocabulary = input.vocabulary) {budget : Nat} (hbudget : 0 < budget)
    {short long : DecisionTable} (h : List.Forall₂ (Truncates budget) short long) :
    input'.expected long = input.expected short :=
  expected_congr hvocabulary (h.imp fun _ _ hcut =>
    eraseDups_firstKinds hcut.ordered hcut.ordered_long (hcut.mem_firstKinds_iff hbudget))

/-! ## Accepted with less lookahead and with more -/

/-- The parser with other tables and another depth of lookahead. -/
def Parser.withLookahead {τ : Type} (p : Parser τ) (lookahead : Lookahead) (depth : Nat) :
    Parser τ :=
  { p with lookahead, config := p.config.withMaxLookahead depth }

namespace GrammarDef

variable {τ : Type} [Inhabited τ] {d : GrammarDef τ} {config : ParserConfig} {p : Parser τ}
  {k k' : Nat}

/-- A grammar that is accepted with some lookahead is accepted with more, and its tables fit
together with those it had. -/
theorem Accepted.exists_deeper (h : d.Accepted { config with maxLookahead := k } p)
    (hk : k ≤ max k' 1) :
    ∃ lookahead, d.Accepted { config with maxLookahead := k' } (p.withLookahead lookahead k') ∧
      ∀ key, Option.Rel (Deeper d.vocabulary p.config.maxLookahead) (p.lookahead.table? key)
        (lookahead.table? key) := by
  have hsound : (recordRules d.rules).1.Sound True := by
    have hsound := Grammar.sound_recordRules d.rules
    rwa [h.recorded, eq_self_iff_true] at hsound
  have hdepth : p.config.maxLookahead = max k 1 := by
    rw [h.configured]
    rfl
  have hpos : 0 < p.config.maxLookahead := by
    rw [hdepth]
    exact Nat.le_max_right k 1
  have hle : p.config.maxLookahead ≤ max k' 1 := by
    rw [hdepth]
    exact Nat.max_le.mpr ⟨hk, Nat.le_max_right k' 1⟩
  obtain ⟨lookahead, hlookahead, hrel⟩ :=
    Grammar.exists_deeper_lookahead hsound h.leftRecursion hpos hle h.lookahead
  refine ⟨lookahead, ?_, hrel⟩
  exact
    { vocabulary := h.vocabulary
      rules := h.rules
      configured := by
        rw [Parser.withLookahead, h.configured]
        rfl
      nonempty := h.nonempty
      distinct := h.distinct
      start := h.start
      recorded := h.recorded
      leftRecursion := h.leftRecursion
      lookahead := hlookahead }

/--
**More lookahead never makes a grammar ambiguous.**

A grammar that is accepted with some depth of lookahead is accepted with every larger one. The same
decisions have tables then, for the same alternatives: the paths within the smaller depth are what
is left of those within the larger one when they are cut.
-/
theorem analyse_of_le (hk : k ≤ k')
    (h : d.analyse { config with maxLookahead := k } = .ok p) :
    ∃ lookahead,
      d.analyse { config with maxLookahead := k' } = .ok (p.withLookahead lookahead k') ∧
        ∀ key, Option.Rel (List.Forall₂ (Truncates p.config.maxLookahead))
          (p.lookahead.table? key) (lookahead.table? key) := by
  obtain ⟨lookahead, hdeeper, hrel⟩ :=
    (accepted_of_analyse h).exists_deeper (Nat.le_trans hk (Nat.le_max_left k' 1))
  refine ⟨lookahead, analyse_of_accepted hdeeper, fun key => ?_⟩
  have hkey := hrel key
  generalize p.lookahead.table? key = found at hkey ⊢
  generalize lookahead.table? key = found' at hkey ⊢
  cases hkey with
  | none => exact .none
  | some htables => exact .some htables.truncates

/-- Two pairs of letters that differ in the second one. -/
def forks : GrammarDef Unit :=
  { vocabulary := Vocabulary.letters
    rules := [
      ⟨"fork", Body.oneOf 0 () [
        do
          let _ ← Body.take ⟨0⟩
          let _ ← Body.take ⟨0⟩
          return (),
        do
          let _ ← Body.take ⟨0⟩
          let _ ← Body.take ⟨1⟩
          return ()]⟩] }

/-- The parser of forks, with the two tokens of lookahead it takes to tell them apart. -/
def forksParser : Parser Unit :=
  { vocabulary := Vocabulary.letters, rules := forks.rules,
    lookahead := [(⟨0, 0⟩, [[[⟨0⟩, ⟨0⟩]], [[⟨0⟩, ⟨1⟩]]])],
    start := 0, config := { startRule := none, maxLookahead := 2, recovery := true } }

theorem analyse_forks : forks.analyse forksParser.config = .ok forksParser := by cbv

/-- Forks, with five tokens of lookahead. -/
theorem analyse_of_le_forks :
    2 ≤ 5 ∧ forks.analyse { forksParser.config with maxLookahead := 2 } = .ok forksParser ∧
      ∃ lookahead,
        forks.analyse { forksParser.config with maxLookahead := 5 }
            = .ok (forksParser.withLookahead lookahead 5) ∧
          ∀ key, Option.Rel (List.Forall₂ (Truncates forksParser.config.maxLookahead))
            (forksParser.lookahead.table? key) (lookahead.table? key) :=
  ⟨by decide, analyse_forks, analyse_of_le (by decide) analyse_forks⟩

/-- Less lookahead is not always enough. -/
example : ∃ issues, forks.analyse { forksParser.config with maxLookahead := 1 }
    = .error issues := ⟨_, by cbv⟩

end GrammarDef

/-! ## Parsers with one token of lookahead and with more -/

/-- What is recognized decides what an execution gives. -/
theorem Parser.executeWithin_congr {τ : Type} {p q : Parser τ} {steps : Nat} {text : String}
    (hvocabulary : q.vocabulary = p.vocabulary)
    (h : q.recognizeWithin steps text (p.vocabulary.tokenize text).tokens
      = p.recognizeWithin steps text (p.vocabulary.tokenize text).tokens) :
    q.executeWithin steps text = p.executeWithin steps text := by
  simp only [executeWithin, hvocabulary, h]

namespace GrammarDef

variable {τ : Type} [Inhabited τ] {d : GrammarDef τ} {config : ParserConfig} {p : Parser τ}

/-- Both parsers decide alike on the tokens of every text. -/
theorem Accepted.alike_input (hvoc : d.vocabulary.Consistent) (h : d.Accepted config p) (k : Nat)
    {lookahead : Lookahead} (hrel : ∀ key, Option.Rel (Deeper d.vocabulary 1)
      (p.lookahead.table? key) (lookahead.table? key)) (text : String) :
    (p.input text (p.vocabulary.tokenize text).tokens).Alike
      ((p.withLookahead lookahead k).input text (p.vocabulary.tokenize text).tokens) := by
  rw [← h.vocabulary] at hvoc hrel
  have htokens : (p.input text (p.vocabulary.tokenize text).tokens).Matchable := fun t ht =>
    hvoc.kind_mem_matchable (List.mem_toArray.mp ht)
  refine ⟨rfl, rfl, rfl, rfl, fun key => ?_⟩
  show Option.Rel _ (p.lookahead.table? key) (lookahead.table? key)
  have hkey := hrel key
  generalize p.lookahead.table? key = found at hkey ⊢
  generalize lookahead.table? key = found' at hkey ⊢
  cases hkey with
  | none => exact .none
  | @some short long hdeeper =>
    refine .some ⟨fun s => ?_, RecognizerInput.expected_deeper rfl Nat.one_pos hdeeper.truncates⟩
    rw [← RecognizerInput.predict_deeper hvoc htokens hdeeper]
    apply RecognizerInput.predict_congr
    exact fun _ _ _ => rfl

/-- A parser with more lookahead executes every text as the parser with one token does. -/
theorem Accepted.exists_executeWithin_eq (hvoc : d.vocabulary.Consistent)
    (h : d.Accepted { config with maxLookahead := 1 } p) (k : Nat) :
    ∃ lookahead, d.Accepted { config with maxLookahead := k } (p.withLookahead lookahead k) ∧
      ∀ text steps,
        (p.withLookahead lookahead k).executeWithin steps text = p.executeWithin steps text := by
  have hdepth : p.config.maxLookahead = 1 := by
    rw [h.configured]
    rfl
  obtain ⟨lookahead, hdeeper, hrel⟩ := h.exists_deeper (Nat.le_max_right k 1)
  rw [hdepth] at hrel
  refine ⟨lookahead, hdeeper, fun text steps => ?_⟩
  have halike := h.alike_input hvoc k hrel text
  exact Parser.executeWithin_congr rfl
    ((halike.simulation rfl).recognizeWith halike p.rules steps p.start).symm

/--
**The depth of the lookahead is unobservable** for a grammar that needs one token of it.

A grammar that is accepted with one token of lookahead is accepted with any number of them. Every
text is then executed in the same number of steps, if it is executed to an end, with the same
value, the same errors and the same events.
-/
theorem lookahead_unobservable (hvoc : d.vocabulary.Consistent)
    (h : d.analyse { config with maxLookahead := 1 } = .ok p) (k : Nat) :
    ∃ q, d.analyse { config with maxLookahead := k } = .ok q ∧
      ∀ text, q.execute text = p.execute text ∧
        ∀ steps, q.executeWithin steps text = p.executeWithin steps text := by
  obtain ⟨lookahead, hdeeper, hsame⟩ := (accepted_of_analyse h).exists_executeWithin_eq hvoc k
  exact ⟨_, analyse_of_accepted hdeeper, fun text => ⟨hsame text _, hsame text⟩⟩

/-- The parser of pairs, with three tokens of lookahead. -/
theorem lookahead_unobservable_pairs :
    pairs.vocabulary.Consistent ∧
      pairs.analyse { pairsParser.config with maxLookahead := 1 } = .ok pairsParser ∧
      ∃ q, pairs.analyse { pairsParser.config with maxLookahead := 3 } = .ok q ∧
        ∀ text, q.execute text = pairsParser.execute text ∧
          ∀ steps, q.executeWithin steps text = pairsParser.executeWithin steps text :=
  ⟨Vocabulary.consistent_letters, analyse_pairs,
    lookahead_unobservable Vocabulary.consistent_letters analyse_pairs 3⟩

end GrammarDef

end Palette
