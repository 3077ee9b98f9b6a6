import Palette.Proofs.Grammar.Simulation
import Palette.Proofs.Grammar.Soundness

/-!
# Recovery is conservative

A recognizer that recovers does the same as one that does not, up to the first token that it passes
over. There both record an error, of the same kind, at the same token and with the same rules being
run. This happens outside of speculation, so neither run ever takes its error back, and whatever
was recorded before is common to both.

Main statements: `lockstep` for runs and `GrammarDef.recovery_conservative` for whole texts.
-/

namespace Palette

/-! ## Where two runs part -/

/-- The errors are about the same: their messages may differ. -/
structure RecognitionError.SameSpot (e e' : RecognitionError) : Prop where
  kind : e'.kind = e.kind
  token : e'.token = e.token
  stack : e'.stack = e.stack

/-- The run that came to the state recorded an error, and the other one, if it ends, has one about
the same behind the same errors. -/
def Recognition.Parted {α : Type} (t : Recognition) (o' : Outcome α) : Prop :=
  ∃ (es : List RecognitionError) (e : RecognitionError), es ++ [e] <+: t.errors ∧
    ∀ v' t', o' = .finished v' t' → ∃ e', e.SameSpot e' ∧ es ++ [e'] <+: t'.errors

namespace Recognition.Parted

variable {α β : Type} {t u : Recognition} {o' : Outcome α}

/-- Runs that parted stay apart, whatever follows. -/
theorem andThen {next' : Option α → Recognition → Outcome β} (h : t.Parted o')
    (hu : t.errors <+: u.errors)
    (hnext : ∀ v t' w u', next' v t' = .finished w u' → t'.errors <+: u'.errors) :
    u.Parted (o'.andThen next') := by
  obtain ⟨es, e, ht, ht'⟩ := h
  refine ⟨es, e, ht.trans hu, fun w u' hw => ?_⟩
  obtain ⟨v, t', ho, hw⟩ := Outcome.andThen_eq_finished hw
  obtain ⟨e', hspot, hprefix⟩ := ht' v t' ho
  exact ⟨e', hspot, hprefix.trans (hnext v t' w u' hw)⟩

theorem errors_ne_nil (h : t.Parted o') : t.errors ≠ [] := by
  obtain ⟨es, e, ht, -⟩ := h
  intro hnil
  rw [hnil] at ht
  exact List.append_ne_nil_of_right_ne_nil es (List.cons_ne_nil e []) (List.prefix_nil.mp ht)

/-- The first errors of runs that parted are about the same. -/
theorem sameSpot_of_errors (h : t.Parted o') {v : Option α} {t' : Recognition}
    (ho : o' = .finished v t') {first : RecognitionError} {rest : List RecognitionError}
    (hfirst : t.errors = first :: rest) :
    ∃ first' rest', t'.errors = first' :: rest' ∧ first.SameSpot first' := by
  obtain ⟨es, e, ⟨l, hl⟩, hother⟩ := h
  obtain ⟨e', hspot, l', hl'⟩ := hother v t' ho
  rw [hfirst] at hl
  cases es with
  | nil =>
    obtain ⟨rfl, -⟩ := List.cons.inj hl
    exact ⟨e', l', hl'.symm, hspot⟩
  | cons x es =>
    obtain ⟨rfl, -⟩ := List.cons.inj hl
    exact ⟨x, _, hl'.symm, rfl, rfl, rfl⟩

end Recognition.Parted

/-! ## In lockstep -/

/-- Both runs keep what they start with, and when the first ends, the second ends in the same way,
unless they part outside of speculation. -/
def Lockstep : OutcomeRel := fun _ s o o' =>
  o.Keeps s ∧ o'.Keeps s ∧ ∀ v t, o = .finished v t → o' = .finished v t ∨
    s.speculating = 0 ∧ t.Parted o'

/-- Two runs that are the same do not part. -/
theorem Lockstep.same {α : Type} {s : Recognition} {o : Outcome α} (h : o.Keeps s) :
    Lockstep α s o o :=
  ⟨h, h, fun _ _ ho => .inl ho⟩

section

variable {input : RecognizerInput}

/-- A recognizer that recovers passes over a token only where the other one fails at it. -/
theorem lockstep_consume (hstrict : input.recovery = false) (s : Recognition) (kind : TokenKind) :
    Lockstep Token s (.finished (input.consume s kind).1 (input.consume s kind).2)
      (.finished (({ input with recovery := true } : RecognizerInput).consume s kind).1
        (({ input with recovery := true } : RecognizerInput).consume s kind).2) := by
  refine ⟨.finished _ (input.keeps_consume s kind),
    .finished _ (({ input with recovery := true } : RecognizerInput).keeps_consume s kind), ?_⟩
  rintro v t ⟨⟩
  have hfits : ∀ number, ({ input with recovery := true } : RecognizerInput).fitsAhead s number kind
      = input.fitsAhead s number kind := fun _ => rfl
  unfold RecognizerInput.consume
  simp only [hstrict, hfits, Bool.false_and, Bool.true_and]
  by_cases hnext : input.fitsAhead s 1 kind = true
  · simp only [hnext, if_true]
    exact .inl rfl
  · by_cases hrecover : (s.speculating == 0 && input.fitsAhead s 2 kind) = true
    · have hspeculating : s.speculating = 0 := by
        rw [Bool.and_eq_true, beq_iff_eq] at hrecover
        exact hrecover.1
      simp only [hnext, hrecover, if_true, if_false, Bool.false_eq_true]
      refine .inr ⟨hspeculating, s.errors, _, List.prefix_refl _, ?_⟩
      rintro v' t' ⟨⟩
      refine ⟨_, ?_, List.prefix_refl _⟩
      exact ⟨rfl, rfl, rfl⟩
    · simp only [hnext, hrecover, if_false, Bool.false_eq_true]
      exact .inl rfl

/-- **Runs with and without recovery go in lockstep** until they part for good. -/
theorem lockstep (hstrict : input.recovery = false) :
    Simulation input { input with recovery := true } Lockstep where
  cutOff _ := ⟨nofun, nofun, nofun⟩
  stay v _ := .same (.finished v (.refl _))
  note v _ _ := .same (.finished v ⟨List.prefix_refl _, rfl, rfl⟩)
  report v s kind message := .same (.finished v (input.keeps_report s kind message))
  consume := lockstep_consume hstrict
  andThen := by
    rintro α β s o o' next next' ⟨hkeeps, hkeeps', hfirst⟩ hrest
    refine ⟨hkeeps.andThen fun v t => (hrest v t).1, hkeeps'.andThen fun v t => (hrest v t).2.1, ?_⟩
    intro v u h
    obtain ⟨w, t, ho, hnext⟩ := Outcome.andThen_eq_finished h
    rcases hfirst w t ho with hsame | ⟨hspeculating, hparted⟩
    · rw [hsame]
      rcases (hrest w t).2.2 v u hnext with hsame' | ⟨hspeculating, hparted⟩
      · exact .inl hsame'
      · exact .inr ⟨(hkeeps w t ho).speculating ▸ hspeculating, hparted⟩
    · -- they parted before, and what follows keeps both errors
      exact .inr ⟨hspeculating, hparted.andThen ((hrest w t).1 v u hnext).errors
        fun w' t' v' u' h' => ((hrest w' t').2.1 v' u' h').errors⟩
  speculate := by
    rintro α run run' s ⟨hkeeps, hkeeps', htried⟩
    refine ⟨hkeeps.speculate, hkeeps'.speculate, ?_⟩
    intro v t h
    obtain ⟨w, u, hu, hnext⟩ := Outcome.andThen_eq_finished h
    -- within speculation nothing is passed over, so the runs do not part
    rcases htried w u hu with hsame | ⟨hspeculating, -⟩
    · refine .inl ?_
      rw [speculate, hsame]
      exact hnext
    · exact absurd hspeculating (Nat.succ_ne_zero _)
  enter := by
    rintro α s r o o' ⟨hkeeps, hkeeps', hinside⟩
    refine ⟨hkeeps.enter, hkeeps'.enter, ?_⟩
    intro v u h
    obtain ⟨w, t, ho, hpop⟩ := Outcome.andThen_eq_finished h
    cases hpop
    rcases hinside _ t ho with hsame | ⟨hspeculating, hparted⟩
    · rw [hsame]
      exact .inl rfl
    · refine .inr ⟨hspeculating, hparted.andThen (List.prefix_refl _) ?_⟩
      rintro _ _ _ _ ⟨⟩
      exact List.prefix_refl _

end

/-! ## Whole texts -/

/-- Whether a parser recovers plays no part in its analysis. -/
theorem GrammarDef.Accepted.withRecovery {τ : Type} [Inhabited τ] {d : GrammarDef τ}
    {config : ParserConfig} {p : Parser τ} (h : d.Accepted config p) (recovery : Bool) :
    d.Accepted { config with recovery } { p with config := { p.config with recovery } } where
  vocabulary := h.vocabulary
  rules := h.rules
  configured := congrArg (fun c : ParserConfig => { c with recovery }) h.configured
  nonempty := h.nonempty
  distinct := h.distinct
  start := h.start
  recorded := h.recorded
  leftRecursion := h.leftRecursion
  lookahead := h.lookahead

/-- The first errors of the recognition are about the same, if there are any. -/
def Execution.SameFirstSpot {τ : Type} (e e' : Execution τ) : Prop :=
  ∀ first rest, e.recognitionErrors = first :: rest →
    ∃ first' rest', e'.recognitionErrors = first' :: rest' ∧ first.SameSpot first'

/--
**Recovery is conservative.**

A grammar that is accepted without recovery is accepted with it. A text that is executed without
an error of the grammar is executed in the same way with recovery; and where there are such errors,
the first one that recovery reports, if it comes to an end, is of the same kind, at the same token
and with the same rules being run.
-/
theorem GrammarDef.recovery_conservative {τ : Type} [Inhabited τ] {d : GrammarDef τ}
    {config : ParserConfig} {p : Parser τ}
    (hp : d.analyse { config with recovery := false } = .ok p) {n : Nat} {text : String}
    {e : Execution τ} {log : List String} (h : p.executeWithin n text = some (e, log)) :
    ∃ q, d.analyse { config with recovery := true } = .ok q ∧
      (e.recognitionErrors = [] → ∀ m ≥ n, q.executeWithin m text = some (e, log)) ∧
      ∀ m e' log', q.executeWithin m text = some (e', log') → e.SameFirstSpot e' := by
  have hacc := accepted_of_analyse hp
  let q : Parser τ := { p with config := { p.config with recovery := true } }
  refine ⟨q, analyse_of_accepted (hacc.withRecovery true), ?_⟩
  have hstrict : (p.input text (p.vocabulary.tokenize text).tokens).recovery = false := by
    show p.config.recovery = false
    rw [hacc.configured]
    rfl
  -- With enough steps for both, the two executions go in lockstep.
  have hlockstep : ∀ m, Lockstep τ .start
      (p.recognizeWithin m text (p.vocabulary.tokenize text).tokens)
      (q.recognizeWithin m text (p.vocabulary.tokenize text).tokens) := fun m =>
    (lockstep hstrict).recognizeWith (RecognizerInput.alike_of_recovery _ true) p.rules m p.start
  obtain ⟨result, s, hrun, rfl, rfl⟩ := Parser.executeWithin_eq_some_iff.mp h
  have hrun' : ∀ m ≥ n, p.recognizeWithin m text (p.vocabulary.tokenize text).tokens
      = .finished result s := fun m hm => recognizeWith_below p.rules _ hm p.start _ _ hrun
  constructor
  · intro hnone m hm
    rw [Parser.recognitionErrors_allErrors] at hnone
    rcases (hlockstep m).2.2 _ _ (hrun' m hm) with hsame | ⟨-, hparted⟩
    · exact Parser.executeWithin_eq_some_iff.mpr ⟨result, s, hsame, rfl, rfl⟩
    · exact absurd hnone hparted.errors_ne_nil
  · intro m e' log' h' first rest hfirst
    obtain ⟨result', s', hlenient, rfl, rfl⟩ := Parser.executeWithin_eq_some_iff.mp h'
    rw [Parser.recognitionErrors_allErrors] at hfirst ⊢
    have hlenient' : q.recognizeWithin (max n m) text (p.vocabulary.tokenize text).tokens
        = .finished result' s' :=
      recognizeWith_below p.rules _ (Nat.le_max_right n m) p.start _ _ hlenient
    rcases (hlockstep (max n m)).2.2 _ _ (hrun' _ (Nat.le_max_left n m)) with hsame | ⟨-, hparted⟩
    · rw [hlenient'] at hsame
      cases hsame
      exact ⟨first, rest, hfirst, rfl, rfl, rfl⟩
    · exact hparted.sameSpot_of_errors hlenient' hfirst

/-- Pairs of letters that give up at the first token that does not fit. -/
def GrammarDef.strictPairsParser : Parser Unit :=
  { pairsParser with config := { pairsParser.config with recovery := false } }

/-- One text of pairs has no error, and in another one the second letter does not fit. -/
theorem GrammarDef.recovery_conservative_pairs :
    pairs.analyse { pairsParser.config with recovery := false } = .ok strictPairsParser ∧
      (∃ e log, strictPairsParser.executeWithin 20 "ab" = some (e, log) ∧
        e.recognitionErrors = [] ∧ pairsParser.executeWithin 20 "ab" = some (e, log)) ∧
      ∃ e log e' log', strictPairsParser.executeWithin 20 "aabb" = some (e, log) ∧
        e.recognitionErrors.map (·.kind) = [.mismatchedToken] ∧
        pairsParser.executeWithin 20 "aabb" = some (e', log') ∧ e.SameFirstSpot e' := by
  have hp : pairs.analyse { pairsParser.config with recovery := false }
      = .ok strictPairsParser := by cbv
  have hkinds : ∀ text kinds, (strictPairsParser.executeWithin 20 text).map
      (fun r => r.1.recognitionErrors.map (·.kind)) = some kinds →
      ∃ e log, strictPairsParser.executeWithin 20 text = some (e, log) ∧
        e.recognitionErrors.map (·.kind) = kinds := by
    intro text kinds h
    obtain ⟨⟨e, log⟩, he, hk⟩ := Option.map_eq_some_iff.mp h
    exact ⟨e, log, he, hk⟩
  obtain ⟨e₁, log₁, h₁, hnone⟩ := hkinds "ab" [] (by cbv)
  obtain ⟨e₂, log₂, h₂, hone⟩ := hkinds "aabb" [.mismatchedToken] (by cbv)
  obtain ⟨q, hq, hsame, -⟩ := recovery_conservative hp h₁
  obtain ⟨q', hq', -, hfirst⟩ := recovery_conservative hp h₂
  obtain rfl : q = pairsParser := Except.ok.inj (hq.symm.trans analyse_pairs)
  obtain rfl : q' = pairsParser := Except.ok.inj (hq'.symm.trans analyse_pairs)
  have hlenient : (pairsParser.executeWithin 20 "aabb").isSome = true := by cbv
  obtain ⟨⟨e₃, log₃⟩, h₃⟩ := Option.isSome_iff_exists.mp hlenient
  exact ⟨hp, ⟨e₁, log₁, h₁, List.map_eq_nil_iff.mp hnone,
    hsame (List.map_eq_nil_iff.mp hnone) 20 (Nat.le_refl _)⟩,
    e₂, log₂, e₃, log₃, h₂, hone, h₃, hfirst 20 e₃ log₃ h₃⟩

end Palette
