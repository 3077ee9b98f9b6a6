import Mathlib.Data.List.Nodup
import Mathlib.Data.List.TakeWhile
import Palette.Proofs.Grammar.Analysis
import Palette.Proofs.Grammar.Passage
import Palette.Proofs.Grammar.Run
import Palette.Proofs.Lexer.Tiling
import Palette.Proofs.Vocabulary.Built

/-!
# What the recognizer accepts

A rule that comes to a value went along its recorded sequence. A body and its outline are gone
through together: every call that succeeds goes along the production that was recorded of it, and
since all decisions have their tables, nothing is tried out and taken back. A failure ends a
static body, so only runs without one have to be followed.

Main statements: `Body.run_follows` for bodies, `invokeRule_follows` for rules, and
`Parser.derives_of_executeWithin` for whole texts.
-/

namespace Palette

/-- The grammar is the outline of the rules, and the recognizer reads the tables of all its
decisions. -/
structure Grammar.Describes {τ : Type} (g : Grammar) (rules : List (RuleDef τ))
    (input : RecognizerInput) : Prop where
  outline : ∀ (r : RuleId) (rule : RuleDef τ), rules[r]? = some rule →
    ∃ calls, rule.body.Makes calls ∧ Recorded (ruleId? rules) r g.Decides calls (g.rule r)
  size : g.size = rules.length
  table : ∀ key, g.Decides key → ∃ table, input.lookahead.table? key = some table
  /-- Nothing but itself stands for the end of the input. -/
  endOfInput : ∀ kind, input.vocabulary.fits .endOfInput kind = true → kind = .endOfInput

/-- Rules that come to a value go along their sequences. -/
def Grammar.Follows {τ : Type} (g : Grammar) (input : RecognizerInput)
    (invoke : RuleId → Recognition → Outcome τ) : Prop :=
  ∀ (r : RuleId) (s t : Recognition) (v : τ), r < g.size → invoke r s = .finished (some v) t →
    input.Follows g s (g.rule r) t

section

variable {τ : Type} {rules : List (RuleDef τ)} {input : RecognizerInput} {g : Grammar}
  {id : RuleId} {site : Site} {s t : Recognition}

/-- The index found for a name is one of a rule of the grammar. -/
theorem Grammar.Describes.lt_size (hg : g.Describes rules input) {name : String} {r : RuleId}
    (h : ruleId? rules name = some r) : r < g.size :=
  hg.size ▸ (List.findIdx?_eq_some_iff_findIdx_eq.mp h).1

/-- The decisions of the rule being run have their tables. -/
theorem Grammar.Describes.exists_table? (hg : g.Describes rules input)
    (hkey : g.Decides ⟨id, site⟩) (hs : s.stack.head? = some id) :
    ∃ table, input.table? s site = some table := by
  obtain ⟨table, htable⟩ := hg.table _ hkey
  exact ⟨table, by rw [RecognizerInput.table?, hs, Option.getD_some, htable]⟩

/-- **Rounds go along a repetition.** -/
theorem repeatRounds_follows (hg : g.Describes rules input) {σ : Type}
    {round : σ → Recognition → Outcome σ} {qs : List Production} (number : Nat)
    (hkey : g.Decides ⟨id, site⟩)
    (hround : ∀ a s a' t, s.stack.head? = some id → round a s = .finished (some a') t →
      input.Follows g s qs t) {steps : Nat} {a a' : σ}
    (hs : s.stack.head? = some id)
    (h : repeatRounds input site round steps a s = .finished (some a') t) :
    input.Follows g s [.decision number ⟨id, site⟩ .many [qs]] t := by
  induction steps generalizing a s with
  | zero => cases h
  | succ steps ih =>
    -- The decision has its table, so the rounds are not tried out.
    obtain ⟨table, htable⟩ := hg.exists_table? hkey hs
    simp only [repeatRounds, htable] at h
    split at h
    · obtain ⟨v, u, hu, h⟩ := Outcome.andThen_eq_finished h
      cases v with
      | none => cases h
      | some a'' =>
        have hfollows : input.Follows g s (bodyOf [qs]) u := hround a s a'' u hs hu
        dsimp only at h
        split at h
        · cases h
          exact hfollows.manyMore (.manyDone t)
        · exact hfollows.manyMore (ih (hfollows.stack_eq ▸ hs) h)
    · cases h
      exact .manyDone _

/-- What follows a call in a static body comes to a value only if the call does. -/
theorem Body.of_andThen_run {find : String → Option RuleId}
    {invoke : RuleId → Recognition → Outcome τ} {steps : Nat} {α β : Type}
    (next : Option β → Body τ α) (hfail : next none = fail) {o : Outcome β} {a : α}
    (h : (o.andThen fun v s => (next v).run input find invoke steps s) = .finished (some a) t) :
    ∃ v u, o = .finished (some v) u ∧
      (next (some v)).run input find invoke steps u = .finished (some a) t := by
  obtain ⟨v, u, hu, hnext⟩ := Outcome.andThen_eq_finished h
  cases v with
  | none =>
    rw [hfail] at hnext
    cases hnext
  | some v => exact ⟨v, u, hu, hnext⟩

/-- **A body that comes to a value went along what was recorded of it.** -/
theorem Body.run_follows (hg : g.Describes rules input)
    {invoke : RuleId → Recognition → Outcome τ} (hinvoke : g.Follows input invoke) {α : Type}
    {b : Body τ α} {calls : List Call} {ps : List Production} (hb : b.Makes calls)
    (hps : Recorded (ruleId? rules) id g.Decides calls ps) (hs : s.stack.head? = some id)
    {steps : Nat} {a : α}
    (h : b.run input (ruleId? rules) invoke steps s = .finished (some a) t) :
    input.Follows g s ps t := by
  -- Along the body, the outline and its productions lose one call after the other. The stack is the
  -- same behind every call, so each decision finds the table of the rule that is being run.
  induction b generalizing calls ps s t with
  | done a' =>
    obtain rfl := hb
    cases hps
    cases h
    exact .refl s
  | fail => exact hb.elim
  | consume kind next ih =>
    obtain ⟨hkind, hfail, rest, rfl, hnext⟩ := hb
    obtain _ | hrest := hps
    cases hc : input.consume s kind with
    | mk token u =>
      simp only [run, hc] at h
      cases token with
      | none =>
        rw [hfail] at h
        cases h
      | some token =>
        have hfollows : input.Follows g s [.terminal kind] u :=
          RecognizerInput.follows_consume hkind hg.endOfInput hc
        exact hfollows.append (ih _ (hnext _) hrest (hfollows.stack_eq ▸ hs) h)
  | subrule name next ih =>
    obtain ⟨hfail, rest, rfl, hnext⟩ := hb
    cases hps with
    | subrule hfound hrest =>
      simp only [run, hfound] at h
      obtain ⟨v, u, hu, h⟩ := of_andThen_run next hfail h
      have hr := hg.lt_size hfound
      have hfollows := hinvoke _ s u v hr hu
      exact (RecognizerInput.Follows.nonterminal hr hfollows).append
        (ih _ (hnext _) hrest (hfollows.stack_eq ▸ hs) h)
  | option site body next ihbody ih =>
    obtain ⟨hfail, inner, rest, rfl, hbody, hnext⟩ := hb
    cases hps with
    | option hkey hinner hrest =>
      obtain ⟨table, htable⟩ := hg.exists_table? hkey hs
      simp only [run, htable] at h
      split at h
      · obtain ⟨v, u, hu, h⟩ := of_andThen_run (fun r => next (r.map some)) hfail h
        have hfollows := ihbody hbody hinner hs hu
        exact (RecognizerInput.Follows.optionSome hfollows).append
          (ih _ (hnext _) hrest (hfollows.stack_eq ▸ hs) h)
      · exact (RecognizerInput.Follows.optionNone s).append (ih _ (hnext _) hrest hs h)
  | many site initial round next ihround ih =>
    obtain ⟨hfail, inner, rest, rfl, hround, hnext⟩ := hb
    cases hps with
    | @many _ number _ qs _ _ hkey hinner hrest =>
      obtain ⟨v, u, hu, h⟩ := of_andThen_run next hfail h
      have hfollows := repeatRounds_follows hg number hkey
        (fun a s a' t hs hr => ihround a (hround a) hinner hs hr) hs hu
      exact hfollows.append (ih _ (hnext _) hrest (hfollows.stack_eq ▸ hs) h)
  | atLeastOne site initial round next ihround ih =>
    obtain ⟨hfail, inner, rest, rfl, hround, hnext⟩ := hb
    cases hps with
    | @atLeastOne _ number _ qs _ _ hkey hinner hrest =>
      simp only [run] at h
      split at h
      · rw [hfail] at h
        cases h
      · obtain ⟨v, u, hu, h⟩ := Outcome.andThen_eq_finished h
        cases v with
        | none =>
          dsimp only at h
          rw [hfail] at h
          cases h
        | some v =>
          obtain ⟨v', u', hu', h⟩ := of_andThen_run next hfail h
          have hfirst : input.Follows g s (bodyOf [qs]) u := ihround _ (hround _) hinner hs hu
          have hmore := repeatRounds_follows hg number hkey
            (fun a s a' t hs hr => ihround a (hround a) hinner hs hr) (hfirst.stack_eq ▸ hs) hu'
          have hfollows := hfirst.atLeastOne hmore
          exact hfollows.append (ih _ (hnext _) hrest (hfollows.stack_eq ▸ hs) h)
  | choose site count alternatives blank next ihalt ih =>
    obtain ⟨hfail, inner, rest, rfl, hlen, halt, hnext⟩ := hb
    cases hps with
    | choose hkey hcount hbranches hrest =>
      obtain ⟨table, htable⟩ := hg.exists_table? hkey hs
      simp only [run, htable] at h
      split at h
      · next i _ =>
        obtain ⟨v, u, hu, h⟩ := of_andThen_run next hfail h
        obtain ⟨branch, qs, hmem, hbranch, hqs⟩ :=
          Recorded.exists_branch hlen hcount halt hbranches i
        have hfollows := ihalt i hbranch hqs hs hu
        exact (RecognizerInput.Follows.alternation hmem hfollows).append
          (ih _ (hnext _) hrest (hfollows.stack_eq ▸ hs) h)
      · rw [hfail] at h
        cases h
  | action event next ih =>
    -- An action changes the log only, which nothing here looks at.
    obtain ⟨l, hl, hd⟩ := ih hb hps (s := { s with log := s.log ++ [event] }) hs h
    exact ⟨l, ⟨hl.tokens, hl.position, hl.errors, hl.stack⟩, hd⟩
  | lookahead number next ih => exact hb.elim
  | recording next ih => exact hb.elim
  | progress next ih => exact hb.elim

/-- A rule goes along its sequence if the rules that it invokes do. -/
theorem enterRule_follows (hg : g.Describes rules input)
    {invoke : RuleId → Recognition → Outcome τ} (hinvoke : g.Follows input invoke) (steps : Nat) :
    g.Follows input (enterRule rules input invoke steps) := by
  intro r s t v hr h
  rw [hg.size] at hr
  have hrule := List.getElem?_eq_getElem hr
  simp only [enterRule, hrule] at h
  obtain ⟨w, u, hu, h⟩ := Outcome.andThen_eq_finished h
  cases h
  obtain ⟨calls, hcalls, hrecorded⟩ := hg.outline r _ hrule
  obtain ⟨l, hl, hd⟩ := Body.run_follows hg hinvoke hcalls hrecorded rfl hu
  exact ⟨l, ⟨hl.tokens, hl.position, hl.errors, by rw [hl.stack]; rfl⟩, hd⟩

/-- **A rule that comes to a value went along its sequence.** -/
theorem invokeRule_follows (hg : g.Describes rules input) (steps : Nat) :
    g.Follows input (invokeRule rules input steps) := by
  induction steps with
  | zero => exact fun r s t v hr h => nomatch h
  | succ steps ih => exact enterRule_follows hg ih steps

end

/-! ## Whole texts -/

/-- Whether an error of a kind was reported at a token. -/
def RecognitionError.anyAt (errors : List RecognitionError) (kind : RecognitionErrorKind)
    (token : Token) : Bool :=
  errors.any fun e => e.kind == kind && e.token == token

/-- The tokens that a run took, told by its errors: those in front of the one at which it should
have ended, without those that did not fit. -/
def takenTokens (tokens : List Token) (errors : List RecognitionError) : List Token :=
  (tokens.takeWhile (!RecognitionError.anyAt errors .notAllInputParsed ·)).filter
    (!RecognitionError.anyAt errors .mismatchedToken ·)

theorem takenTokens_nil (tokens : List Token) : takenTokens tokens [] = tokens := by
  have hwhile : tokens.takeWhile (!RecognitionError.anyAt [] .notAllInputParsed ·) = tokens :=
    List.takeWhile_eq_self_iff.mpr fun _ _ => rfl
  rw [takenTokens, hwhile]
  exact List.filter_eq_self.mpr fun _ _ => rfl

namespace Passage

variable {l : List Passage} {es : List RecognitionError}

/-- Among tokens that are all different, an error at a token tells that it was passed over. -/
theorem filter_anyAt (hnodup : (l.map (·.token)).Nodup) (htoken : es.map (·.token) = passedOf l)
    (hkind : ∀ e ∈ es, e.kind = .mismatchedToken) :
    (l.map (·.token)).filter (!RecognitionError.anyAt es .mismatchedToken ·) = takenOf l := by
  have hany : ∀ t, RecognitionError.anyAt es .mismatchedToken t = true ↔ t ∈ passedOf l := by
    intro t
    rw [← htoken, RecognitionError.anyAt, List.any_eq_true, List.mem_map]
    constructor
    · rintro ⟨e, he, h⟩
      exact ⟨e, he, beq_iff_eq.mp (Bool.and_eq_true_iff.mp h).2⟩
    · rintro ⟨e, he, rfl⟩
      exact ⟨e, he, by simp [hkind e he]⟩
  rw [List.filter_map, takenOf]
  congr 1
  apply List.filter_congr
  intro x hx
  cases htaken : x.taken with
  | true =>
    have hnot : x.token ∉ passedOf l := by
      intro hmem
      obtain ⟨y, hy, hxy⟩ := List.mem_map.mp hmem
      obtain ⟨hy, hpassed⟩ := List.mem_filter.mp hy
      rw [List.inj_on_of_nodup_map hnodup hy hx hxy, htaken] at hpassed
      cases hpassed
    rw [← hany, Bool.not_eq_true] at hnot
    rw [Function.comp_apply, hnot, Bool.not_false]
  | false =>
    have hmem : x.token ∈ passedOf l :=
      List.mem_map.mpr ⟨x, List.mem_filter.mpr ⟨hx, by rw [htaken]; rfl⟩, rfl⟩
    rw [Function.comp_apply, (hany _).mpr hmem, Bool.not_true]

/-- No error marks the end where all tokens were gone past. -/
theorem takenTokens_of_all (hnodup : (l.map (·.token)).Nodup)
    (htoken : es.map (·.token) = passedOf l) (hkind : ∀ e ∈ es, e.kind = .mismatchedToken) :
    takenTokens (l.map (·.token)) es = takenOf l := by
  have hno : ∀ t, RecognitionError.anyAt es .notAllInputParsed t = false := by
    intro t
    rw [RecognitionError.anyAt, List.any_eq_false]
    intro e he
    simp [hkind e he]
  rw [takenTokens, List.takeWhile_eq_self_iff.mpr fun t _ => by rw [hno]; rfl]
  exact filter_anyAt hnodup htoken hkind

/-- The error at the first token that is left over marks the end. -/
theorem takenTokens_of_rest {token : Token} {rest : List Token}
    (hnodup : (l.map (·.token) ++ token :: rest).Nodup)
    (htoken : es.map (·.token) = passedOf l) (hkind : ∀ e ∈ es, e.kind = .mismatchedToken)
    {e : RecognitionError} (hekind : e.kind = .notAllInputParsed) (hetoken : e.token = token) :
    takenTokens (l.map (·.token) ++ token :: rest) (es ++ [e]) = takenOf l := by
  have hend : ∀ t, RecognitionError.anyAt (es ++ [e]) .notAllInputParsed t = (token == t) := by
    intro t
    have hes : RecognitionError.anyAt es .notAllInputParsed t = false := by
      rw [RecognitionError.anyAt, List.any_eq_false]
      intro e he
      simp [hkind e he]
    rw [RecognitionError.anyAt] at hes ⊢
    rw [List.any_append, hes]
    simp [hekind, hetoken]
  have hmismatched : ∀ t, RecognitionError.anyAt (es ++ [e]) .mismatchedToken t
      = RecognitionError.anyAt es .mismatchedToken t := by
    intro t
    simp [RecognitionError.anyAt, hekind]
  obtain ⟨hnodup, -, hdisjoint⟩ := List.nodup_append.mp hnodup
  rw [takenTokens, List.takeWhile_append_of_pos, List.takeWhile_cons_of_neg, List.append_nil]
  · simp only [hmismatched]
    exact filter_anyAt hnodup htoken hkind
  · rw [hend, beq_self_eq_true]
    decide
  · intro t ht
    rw [hend, beq_false_of_ne (hdisjoint t ht token List.mem_cons_self).symm]
    rfl

end Passage

/-- The errors of the grammar. -/
def Execution.recognitionErrors {τ : Type} (e : Execution τ) : List RecognitionError :=
  e.errors.filterMap fun
    | .lexical _ => none
    | .recognition e => some e

theorem Parser.recognitionErrors_allErrors {τ : Type} (result : Option τ)
    (lexical : List LexError) (recognition : List RecognitionError) :
    (⟨result, allErrors lexical recognition⟩ : Execution τ).recognitionErrors = recognition := by
  simp [Execution.recognitionErrors, allErrors, List.filterMap_append, List.filterMap_map]

/-- What an execution is made of. -/
theorem Parser.executeWithin_eq_some_iff {τ : Type} {p : Parser τ} {steps : Nat} {text : String}
    {e : Execution τ} {log : List String} :
    p.executeWithin steps text = some (e, log) ↔
      ∃ result s, p.recognizeWithin steps text (p.vocabulary.tokenize text).tokens
          = .finished result s ∧
        e = ⟨result, allErrors (p.vocabulary.tokenize text).errors s.errors⟩ ∧ log = s.log := by
  unfold executeWithin
  dsimp only
  cases p.recognizeWithin steps text (p.vocabulary.tokenize text).tokens with
  | unfinished => simp
  | finished result s => simp [eq_comm]

/-- A recognition that comes to a value took a word of its start rule, and its errors tell which
tokens it took. -/
theorem derives_of_recognizeWith {τ : Type} {rules : List (RuleDef τ)} {input : RecognizerInput}
    {g : Grammar} (hg : g.Describes rules input) (hnodup : input.tokens.toList.Nodup) {steps : Nat}
    {start : RuleId} (hstart : start < g.size) {v : τ} {s : Recognition}
    (h : recognizeWith rules input steps start = .finished (some v) s) :
    g.Derives input.vocabulary.fits [.nonterminal start]
      ((takenTokens input.tokens.toList s.errors).map (·.kind)) := by
  obtain ⟨w, u, hu, h⟩ := Outcome.andThen_eq_finished h
  cases w with
  | none => cases h
  | some w =>
    obtain ⟨l, hl, hd⟩ := invokeRule_follows hg steps start .start u w hstart hu
    obtain ⟨es, hes, htoken, hkind⟩ := hl.errors
    have htokens : input.tokens.toList = l.map (·.token) ++ input.tokens.toList.drop u.position :=
      hl.tokens
    dsimp only at h
    split at h
    · next hlt =>
      cases h
      have hlt' : u.position < input.tokens.toList.length := hlt
      have hdrop := List.drop_eq_getElem_cons hlt'
      have hahead : input.ahead u 1 = input.tokens.toList[u.position] := by
        simp [RecognizerInput.ahead, hlt]
      rw [hdrop] at htokens
      have herrors : (input.report u .notAllInputParsed
          ("expected end of input but found " ++ input.found u)).errors = es ++ [_] :=
        congrArg (· ++ [_]) hes
      rw [htokens] at hnodup
      rw [herrors, htokens, Passage.takenTokens_of_rest hnodup htoken hkind rfl hahead]
      exact hd.of_rule hstart
    · next hge =>
      cases h
      have hdrop : input.tokens.toList.drop s.position = [] :=
        List.drop_eq_nil_of_le (Nat.le_of_not_lt hge)
      rw [hdrop, List.append_nil] at htokens
      rw [htokens] at hnodup
      rw [htokens, hes, Recognition.start, List.nil_append,
        Passage.takenTokens_of_all hnodup htoken hkind]
      exact hd.of_rule hstart

section

variable {τ : Type} [Inhabited τ] {d : GrammarDef τ} {config : ParserConfig} {p : Parser τ}

/-- The grammar that was recorded and accepted describes its parser. -/
theorem GrammarDef.Accepted.describes (h : d.Accepted config p) (hvoc : d.vocabulary.Consistent)
    (hstatic : d.IsStatic) (text : String) (tokens : List Token) :
    (recordRules d.rules).1.Describes p.rules (p.input text tokens) := by
  refine ⟨?_, ?_, ?_, ?_⟩
  · intro r rule hrule
    rw [h.rules] at hrule ⊢
    obtain ⟨calls, hcalls⟩ := hstatic rule (List.mem_of_getElem? hrule)
    exact ⟨calls, hcalls, recorded_recordRules h.recorded hrule hcalls⟩
  · rw [h.rules, size_recordRules]
  · exact fun key hkey => Grammar.exists_table h.lookahead hkey
  · intro kind hfits
    exact hvoc.eq_of_fits_endOfInput (h.vocabulary ▸ hfits)

/-- **What is accepted is derivable.** When the execution of a text comes to a value, the tokens of
the text are a word of the start rule once those are left out at which an error says that they do
not fit, together with all from the one on that is reported as left over. Without an error of the
grammar the whole text is such a word. -/
theorem Parser.derives_of_executeWithin (hvoc : d.vocabulary.Consistent) (hstatic : d.IsStatic)
    (hp : d.analyse config = .ok p) {steps : Nat} {text : String} {e : Execution τ}
    {log : List String} {v : τ} (h : p.executeWithin steps text = some (e, log))
    (hresult : e.result = some v) :
    (recordRules d.rules).1.Derives d.vocabulary.fits [.nonterminal p.start]
        ((takenTokens (d.vocabulary.tokenize text).tokens e.recognitionErrors).map (·.kind)) ∧
      (e.recognitionErrors = [] →
        (recordRules d.rules).1.Derives d.vocabulary.fits [.nonterminal p.start]
          ((d.vocabulary.tokenize text).tokens.map (·.kind))) := by
  have hacc := GrammarDef.accepted_of_analyse hp
  have htaken : (recordRules d.rules).1.Derives d.vocabulary.fits [.nonterminal p.start]
      ((takenTokens (d.vocabulary.tokenize text).tokens e.recognitionErrors).map (·.kind)) := by
    unfold executeWithin at h
    dsimp only at h
    split at h
    · next result s hrun =>
      obtain ⟨rfl, rfl⟩ := Prod.mk.inj (Option.some.inj h)
      obtain rfl : result = some v := hresult
      have hg := hacc.describes hvoc hstatic text (p.vocabulary.tokenize text).tokens
      have hstart : p.start < (recordRules d.rules).1.size := by
        rw [size_recordRules]
        exact hacc.start_lt
      rw [recognitionErrors_allErrors, ← hacc.vocabulary]
      exact derives_of_recognizeWith hg (p.vocabulary.nodup_tokenize text) hstart hrun
    · cases h
  refine ⟨htaken, fun hnone => ?_⟩
  rwa [hnone, takenTokens_nil] at htaken

/-- In one text the second letter is passed over and the fourth is left over. -/
theorem Parser.derives_of_executeWithin_pairs :
    Vocabulary.letters.Consistent ∧ GrammarDef.pairs.IsStatic ∧
      GrammarDef.pairs.analyse GrammarDef.pairsParser.config = .ok GrammarDef.pairsParser ∧
      ∃ e log, GrammarDef.pairsParser.executeWithin 20 "aabb" = some (e, log) ∧
        e.result = some () ∧
        e.recognitionErrors.map (·.kind) = [.mismatchedToken, .notAllInputParsed] ∧
        (recordRules GrammarDef.pairs.rules).1.Derives Vocabulary.letters.fits [.nonterminal 0]
          [⟨0⟩, ⟨1⟩] := by
  have hrun : (GrammarDef.pairsParser.executeWithin 20 "aabb").map (fun r =>
      (r.1.result, r.1.recognitionErrors.map (·.kind),
        (takenTokens (Vocabulary.letters.tokenize "aabb").tokens r.1.recognitionErrors).map
          (·.kind)))
      = some (some (), [.mismatchedToken, .notAllInputParsed], [⟨0⟩, ⟨1⟩]) := by cbv
  obtain ⟨⟨e, log⟩, h, hr⟩ := Option.map_eq_some_iff.mp hrun
  obtain ⟨hresult, hkinds, htaken⟩ : _ ∧ _ ∧ _ := by simpa only [Prod.mk.injEq] using hr
  refine ⟨Vocabulary.consistent_letters, GrammarDef.isStatic_pairs, GrammarDef.analyse_pairs, e,
    log, h, hresult, hkinds, ?_⟩
  have hderives := (derives_of_executeWithin Vocabulary.consistent_letters GrammarDef.isStatic_pairs
    GrammarDef.analyse_pairs h hresult).1
  exact htaken ▸ hderives

end

end Palette
