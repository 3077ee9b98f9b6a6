import Palette.Proofs.Grammar.Blame
import Palette.Proofs.Grammar.Composition
import Palette.Proofs.Grammar.Rounds
import Palette.Proofs.Grammar.Soundness

/-!
# What a failure leaves behind

What is tried out and fails is as if it had never run: only the position and the number of errors
are remembered, but a run adds its errors behind the earlier ones and leaves every rule that it
entered, so nothing else is left to restore. Events are not part of what is taken back.

Without recovery, rules that pass every failure on report one error at most, whatever they tried
out on the way. A text then has an error where the start rule fails or leaves tokens over, and
nowhere else.

Main statements: `Body.speculate_run` and `GrammarDef.one_error_at_most`.
-/

namespace Palette

/-! ## Trying out -/

namespace RecognizerInput

variable {input : RecognizerInput} {s t : Recognition}

theorem remaining_suffix (h : s.position ≤ t.position) :
    input.remaining t <:+ input.remaining s := by
  obtain ⟨count, hcount⟩ := Nat.exists_eq_add_of_le h
  rw [remaining, remaining, hcount, ← List.drop_drop]
  exact List.drop_suffix _ _

theorem remaining_eq_nil_iff : input.remaining s = [] ↔ ¬s.position < input.tokens.size := by
  rw [remaining, List.drop_eq_nil_iff, Array.length_toList, Nat.not_lt]

end RecognizerInput

/--
**What is tried out and fails leaves no trace.**

If the body fails, the state is the earlier one again, but for the events noted on the way. If it
succeeds, the state is the one that it came to, at the earlier depth of speculation: the earlier
errors still come first, the stack is the earlier one, and of the tokens left before some are left.
The tokens themselves are what a run reads and no part of its state.
-/
theorem Body.speculate_run {τ α : Type} {rules : List (RuleDef τ)} {input : RecognizerInput}
    {b : Body τ α} {m n : Nat} {s u : Recognition} {v : Option α}
    (hrun : b.run input (ruleId? rules) (invokeRule rules input m) n
      { s with speculating := s.speculating + 1 } = .finished v u) :
    let tried := speculate (b.run input (ruleId? rules) (invokeRule rules input m) n) s
    match v with
    | none => tried = .finished none { s with log := u.log }
    | some a => tried = .finished (some a) { u with speculating := s.speculating } ∧
        s.errors <+: u.errors ∧ u.stack = s.stack ∧ input.remaining u <:+ input.remaining s := by
  have hkeeps (s : Recognition) :
      (b.run input (ruleId? rules) (invokeRule rules input m) n s).Keeps s :=
    Body.run_keeps (invokeRule_keeps rules input m) n b s
  intro tried
  cases v with
  | none => exact (hkeeps _).speculate_eq_none hrun
  | some a =>
    obtain ⟨herrors, hstack, -⟩ := hkeeps _ (some a) u hrun
    have hposition : s.position ≤ u.position :=
      Body.run_advances (invokeRule_advances rules input m) n b
        { s with speculating := s.speculating + 1 } (some a) u hrun
    exact ⟨(hkeeps _).speculate_eq_some hrun, herrors, hstack,
      RecognizerInput.remaining_suffix hposition⟩

/-- Tries out two tokens, goes on after an A that is missing, and takes a token of the kind. -/
def Body.probe (kind : TokenKind) : Body Unit Token := do
  let _ ← Body.perhaps 1 do
    let _ ← Body.take ⟨0⟩
    Body.take ⟨0⟩
  let _ ← Body.take ⟨0⟩
  let _ ← (Body.take ⟨0⟩).attempt
  Body.take kind

/-- Behind an A, an A and a B are looked for. Neither run is allowed to pass over the B, although
recovery is on. -/
theorem Body.speculate_run_probe :
    let input := GrammarDef.pairsParser.input "aba"
      [⟨⟨0⟩, "a", 0, 0⟩, ⟨⟨1⟩, "b", 1, 1⟩, ⟨⟨0⟩, "a", 2, 2⟩]
    let run (kind : TokenKind) : Recognition → Outcome Token :=
      (Body.probe kind).run input (ruleId? GrammarDef.pairs.rules)
        (invokeRule GrammarDef.pairs.rules input 5) 5
    let s : Recognition := { input.report .start .earlyExit "none" with stack := [1, 0] }
    input.recovery = true ∧
      (∃ u, run ⟨0⟩ { s with speculating := 1 } = .finished none u ∧ u.position = 1 ∧
        u.errors.length = 3 ∧ speculate (run ⟨0⟩) s = .finished none { s with log := u.log }) ∧
      ∃ t u, run ⟨1⟩ { s with speculating := 1 } = .finished (some t) u ∧ u.position = 2 ∧
        u.errors.length = 2 ∧
        speculate (run ⟨1⟩) s = .finished (some t) { u with speculating := 0 } ∧
        s.errors <+: u.errors ∧ u.stack = [1, 0] ∧ input.remaining u <:+ input.remaining s := by
  intro input run s
  have hfails : ∃ u, run ⟨0⟩ { s with speculating := 1 } = .finished none u ∧ u.position = 1 ∧
      u.errors.length = 3 := ⟨_, rfl, rfl, rfl⟩
  have hsucceeds : ∃ t u, run ⟨1⟩ { s with speculating := 1 } = .finished (some t) u ∧
      u.position = 2 ∧ u.errors.length = 2 := ⟨_, _, rfl, rfl, rfl⟩
  obtain ⟨u, hu, hposition, herrors⟩ := hfails
  obtain ⟨t, u', hu', hposition', herrors'⟩ := hsucceeds
  exact ⟨rfl, ⟨u, hu, hposition, herrors, speculate_run hu⟩, t, u', hu', hposition', herrors',
    speculate_run hu'⟩

/-! ## One error at most -/

section

variable {τ : Type} {rules : List (RuleDef τ)} {input : RecognizerInput} {n : Nat} {start : RuleId}
  {t : Recognition}

/-- A start rule that fails is all there is to a text. -/
theorem invokeRule_of_recognizeWith_none
    (h : recognizeWith rules input n start = .finished none t) :
    invokeRule rules input n start .start = .finished none t := by
  obtain ⟨v, s, hs, ht⟩ := Outcome.andThen_eq_finished h
  cases v with
  | none =>
    cases ht
    exact hs
  | some v =>
    dsimp only at ht
    split at ht <;> cases ht

/-- A start rule that comes to a value is followed by an error if, and only if, it leaves tokens
over. -/
theorem leftOver_of_recognizeWith {v : τ}
    (h : recognizeWith rules input n start = .finished (some v) t) :
    ∃ s, invokeRule rules input n start .start = .finished (some v) s ∧
      match input.remaining s with
      | [] => t = s
      | next :: _ => ∃ error, t.errors = s.errors ++ [error] ∧ error.kind = .notAllInputParsed ∧
          error.token = next := by
  obtain ⟨w, s, hs, ht⟩ := Outcome.andThen_eq_finished h
  cases w with
  | none => cases ht
  | some w =>
    dsimp only at ht
    split at ht
    · next hlt =>
      cases ht
      refine ⟨s, hs, ?_⟩
      cases hleft : input.remaining s with
      | nil => exact absurd hlt (RecognizerInput.remaining_eq_nil_iff.mp hleft)
      | cons next rest => exact ⟨_, rfl, rfl, input.ahead_of_remaining hleft⟩
    · next hge =>
      cases ht
      refine ⟨t, hs, ?_⟩
      rw [RecognizerInput.remaining_eq_nil_iff.mpr hge]

end

namespace GrammarDef

/--
**Without recovery there is at most one error of the grammar.**

If the rules pass every failure on, a text without a value has exactly one error. A text with a
value has none if the start rule took all tokens, and otherwise one that says that the next token
is left over.
-/
theorem one_error_at_most {τ : Type} [Inhabited τ] {d : GrammarDef τ} {config : ParserConfig}
    {p : Parser τ} (hp : d.analyse config = .ok p) (hstrict : config.recovery = false)
    (hrules : ∀ rule ∈ d.rules, rule.body.Propagates) {n : Nat} {text : String} {e : Execution τ}
    {log : List String} (h : p.executeWithin n text = some (e, log)) :
    let input := p.input text (d.vocabulary.tokenize text).tokens
    ∃ s, invokeRule d.rules input n p.start .start = .finished e.result s ∧
      match e.result, input.remaining s with
      | none, _ => ∃ error, e.recognitionErrors = [error]
      | some _, [] => e.recognitionErrors = []
      | some _, next :: _ => ∃ error, e.recognitionErrors = [error] ∧
          error.kind = .notAllInputParsed ∧ error.token = next := by
  have hacc := accepted_of_analyse hp
  intro input
  obtain ⟨result, t, hrun, rfl, -⟩ := Parser.executeWithin_eq_some_iff.mp h
  rw [Parser.recognizeWithin, hacc.rules, hacc.vocabulary] at hrun
  replace hrun : recognizeWith d.rules input n p.start = .finished result t := hrun
  rw [Parser.recognitionErrors_allErrors]
  have hrecovery : input.recovery = false := by
    show p.config.recovery = false
    rw [hacc.configured]
    exact hstrict
  obtain ⟨hvalue, herror⟩ := invokeRule_blames hrecovery hrules n p.start .start
  cases result with
  | none =>
    have hfailed := invokeRule_of_recognizeWith_none hrun
    exact ⟨t, hfailed, herror t hfailed⟩
  | some v =>
    obtain ⟨s, hs, hleft⟩ := leftOver_of_recognizeWith hrun
    have herrors : s.errors = [] := hvalue v s hs
    refine ⟨s, hs, ?_⟩
    cases hremaining : input.remaining s with
    | nil =>
      rw [hremaining] at hleft
      exact hleft ▸ herrors
    | cons next rest =>
      rw [hremaining, herrors] at hleft
      exact hleft

/-- A rule that is recorded as one B. On tokens it makes decisions that were never recorded, and one
of their bodies runs a rule that is not there. -/
def hidden : GrammarDef Unit :=
  { vocabulary := Vocabulary.letters
    rules := [⟨"hidden", .recording fun recording =>
      if recording then do
        let _ ← Body.take ⟨1⟩
        return ()
      else do
        let _ ← Body.perhaps 1 do
          let _ ← Body.take ⟨1⟩
          Body.take ⟨0⟩
        Body.oneOf 2 () [Body.call "missing", do
          let _ ← Body.take ⟨1⟩
          return ()]⟩] }

/-- Its parser, with one token of lookahead and without recovery. -/
def hiddenParser : Parser Unit :=
  { vocabulary := Vocabulary.letters, rules := hidden.rules, lookahead := [], start := 0,
    config := { startRule := none, maxLookahead := 1, recovery := false } }

theorem analyse_hidden : hidden.analyse hiddenParser.config = .ok hiddenParser := by cbv

theorem propagates_hidden : ∀ rule ∈ hidden.rules, rule.body.Propagates := by
  intro rule hrule
  rw [hidden, List.mem_singleton] at hrule
  subst hrule
  have halternatives (i : Fin 2) : (([Body.call "missing", do
      let _ ← Body.take ⟨1⟩
      return ()] : List (Body Unit Unit)).get i).Propagates := by
    match i with
    | 0 => exact ⟨trivial, fun _ => trivial⟩
    | 1 => exact ⟨trivial, fun _ => trivial⟩
  exact ⟨trivial, ⟨trivial, fun _ => ⟨trivial, fun _ => trivial⟩⟩,
    fun _ => ⟨trivial, halternatives, fun _ => trivial⟩⟩

/-- Of two Bs the first is taken after two failures that are taken back, and the second is left
over. An A is not expected at all. -/
theorem one_error_at_most_hidden :
    hidden.analyse hiddenParser.config = .ok hiddenParser ∧
      hiddenParser.config.recovery = false ∧ (∀ rule ∈ hidden.rules, rule.body.Propagates) ∧
      (∃ e log error, hiddenParser.executeWithin 9 "bb" = some (e, log) ∧ e.result = some () ∧
        e.recognitionErrors = [error] ∧ error.kind = .notAllInputParsed ∧
        error.token = ⟨⟨1⟩, "b", 1, 1⟩) ∧
      ∃ e log error, hiddenParser.executeWithin 9 "a" = some (e, log) ∧ e.result = none ∧
        e.recognitionErrors = [error] := by
  have hends (text : String) (v : Option Unit)
      (h : (hiddenParser.executeWithin 9 text).map (·.1.result) = some v) :
      ∃ e log, hiddenParser.executeWithin 9 text = some (e, log) ∧ e.result = v := by
    obtain ⟨⟨e, log⟩, hrun, hv⟩ := Option.map_eq_some_iff.mp h
    exact ⟨e, log, hrun, hv⟩
  refine ⟨analyse_hidden, rfl, propagates_hidden, ?_, ?_⟩
  · obtain ⟨e, log, h, hresult⟩ := hends "bb" (some ()) (by cbv)
    obtain ⟨s, hs, herrors⟩ := one_error_at_most analyse_hidden rfl propagates_hidden h
    let input := hiddenParser.input "bb" (hidden.vocabulary.tokenize "bb").tokens
    have hrun : invokeRule hidden.rules input 9 hiddenParser.start .start
        = .finished (some ()) { Recognition.start with position := 1 } := by cbv
    obtain ⟨-, rfl⟩ := Outcome.finished.inj (hrun.symm.trans hs)
    have hleft : input.remaining { Recognition.start with position := 1 }
        = [⟨⟨1⟩, "b", 1, 1⟩] := by cbv
    rw [hresult, hleft] at herrors
    obtain ⟨error, herrors, hkind, htoken⟩ := herrors
    exact ⟨e, log, error, h, hresult, herrors, hkind, htoken⟩
  · obtain ⟨e, log, h, hresult⟩ := hends "a" none (by cbv)
    obtain ⟨s, -, herrors⟩ := one_error_at_most analyse_hidden rfl propagates_hidden h
    rw [hresult] at herrors
    obtain ⟨error, herrors⟩ := herrors
    exact ⟨e, log, error, h, hresult, herrors⟩

end GrammarDef

end Palette
