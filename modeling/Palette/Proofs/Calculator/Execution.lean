import Palette.Proofs.Calculator.Language
import Palette.Proofs.Grammar.Blame
import Palette.Proofs.Grammar.Termination

/-!
# What the calculator computes

A text without errors is one that can be read, and its result is the value of the reading. If its
tokens can be read, the rules come to the value and leave no token over. If the recognizer reports
nothing it came to a value, since a failure would have left an error, so the grammar derives the
tokens, and what it derives can be read. All this is seen with one token of lookahead, and more of
them change nothing.

Main statement: `parser_computes_readings`.
-/

namespace Palette.Calculator

variable {α : Type} [Inhabited α] (a : Arithmetic α) {v : Vocabulary} {text : String}

section

variable (hv : vocabulary = .ok v)
include hv

theorem consistent_vocabulary : v.Consistent := Vocabulary.consistent_ofDefs hv

theorem reader_input (text : String) :
    Reader ((oneAhead a v).input text (v.tokenize text).tokens) where
  vocabulary := hv
  lookahead := rfl
  tokens _ ht := (consistent_vocabulary hv).kind_mem_matchable (List.mem_toArray.mp ht)

/-- What can be read is recognized, without an error and with the value of the reading. -/
theorem exists_recognizeWithin {x : Expression}
    (h : Reads (.chain .sum) (v.tokenize text).tokens x) :
    ∃ n s, (oneAhead a v).recognizeWithin n text (v.tokenize text).tokens
      = .finished (some (x.value a)) s ∧ s.errors = [] := by
  have hstart : ((oneAhead a v).input text (v.tokenize text).tokens).remaining
      (Recognition.start.enter 0) = (v.tokenize text).tokens ++ [] := (List.append_nil _).symm
  have hexpression : RuleComesTo (rules a) ((oneAhead a v).input text (v.tokenize text).tokens) 0
      .start (x.value a) (Recognition.start.advance (v.tokenize text).tokens.length) :=
    comesTo_expression a (h.evaluates a (reader_input a hv text) hstart trivial)
  have hend : (v.tokenize text).tokens.toArray.size ≤ 0 + (v.tokenize text).tokens.length := by
    rw [List.size_toArray, Nat.zero_add]
  obtain ⟨n, hn⟩ := hexpression.exists_recognizeWith hend
  exact ⟨n, _, hn, rfl⟩

/-- What is recognized without an error can be read. -/
theorem exists_reads_of_recognizeWithin {n : Nat} {result : Option α} {s : Recognition}
    (h : (oneAhead a v).recognizeWithin n text (v.tokenize text).tokens = .finished result s)
    (herrors : s.errors = []) : ∃ x, Reads (.chain .sum) (v.tokenize text).tokens x := by
  have hpropagates : ∀ rule ∈ rules a, rule.body.Propagates := fun rule hrule => by
    obtain ⟨calls, hcalls⟩ := isStatic_definition a v rule hrule
    exact hcalls.propagates
  obtain ⟨value, hvalue⟩ := Option.isSome_iff_exists.mp
    (isSome_of_recognizeWith rfl hpropagates h herrors)
  have hg := (accepted a hv).describes (consistent_vocabulary hv) (isStatic_definition a v) text
    (v.tokenize text).tokens
  have hgrammar : (recordRules (definition a v).rules).1 = grammar := by
    rw [definition, recordRules_rules]
  rw [hgrammar] at hg
  have hstart : 0 < grammar.size := by decide
  have hderives := derives_of_recognizeWith hg (v.nodup_tokenize text) hstart (hvalue ▸ h)
  rw [herrors, takenTokens_nil] at hderives
  exact exists_reads_of_derives hv
    (fun t ht => (consistent_vocabulary hv).kind_mem_matchable ht) hderives

/-- With one token of lookahead, a text is executed without an error just when it can be read, and
then its result is the value of the reading. -/
theorem exists_execute_oneAhead (text : String) : ∃ e log,
    (oneAhead a v).execute text = some (e, log) ∧
      (e.errors = [] ↔ (v.tokenize text).errors = [] ∧
        ∃ x, Reads (.chain .sum) (v.tokenize text).tokens x) ∧
      ∀ x, Reads (.chain .sum) (v.tokenize text).tokens x → e.result = some (x.value a) := by
  obtain ⟨result, s, hrun⟩ := (accepted a hv).recognizeWithin_ends (consistent_vocabulary hv)
    (isStatic_definition a v) text (v.tokenize text).tokens
  have hreads : ∀ x, Reads (.chain .sum) (v.tokenize text).tokens x →
      result = some (x.value a) ∧ s.errors = [] := by
    intro x hx
    obtain ⟨n, s', hrun', herrors⟩ := exists_recognizeWithin a hv hx
    obtain ⟨rfl, rfl⟩ := recognizeWith_unique hrun hrun'
    exact ⟨rfl, herrors⟩
  refine ⟨⟨result, Parser.allErrors (v.tokenize text).errors s.errors⟩, s.log,
    Parser.executeWithin_eq_some_iff.mpr ⟨result, s, hrun, rfl, rfl⟩, ?_,
    fun x hx => (hreads x hx).1⟩
  rw [Parser.allErrors, List.append_eq_nil_iff, List.map_eq_nil_iff, List.map_eq_nil_iff]
  refine and_congr_right fun _ => ⟨exists_reads_of_recognizeWithin a hv hrun, ?_⟩
  rintro ⟨x, hx⟩
  exact (hreads x hx).2

end

/-- **The calculator computes what it reads.**

With whatever depth of lookahead, the calculator can be built, and it executes every text. There is
no error just when the lexer has none and the tokens that it leaves to the parser can be read as an
expression. There is then only one way to read them, and the result is the value of that reading. -/
theorem parser_computes_readings (k : Nat) :
    ∃ p, parser a { ParserConfig.standard with maxLookahead := k } = .ok p ∧
      vocabulary = .ok p.vocabulary ∧
      ∀ text, ∃ e log, p.execute text = some (e, log) ∧
        (e.errors = [] ↔ (p.vocabulary.tokenize text).errors = [] ∧
          ∃ x, Reads (.chain .sum) (p.vocabulary.tokenize text).tokens x) ∧
        (e.errors = [] → ∃ x, Reads (.chain .sum) (p.vocabulary.tokenize text).tokens x ∧
          (∀ y, Reads (.chain .sum) (p.vocabulary.tokenize text).tokens y → y = x) ∧
          e.result = some (x.value a)) := by
  obtain ⟨v, hv⟩ := exists_vocabulary
  obtain ⟨lookahead, hdeeper, hsame⟩ :=
    (accepted a hv).exists_executeWithin_eq (consistent_vocabulary hv) k
  refine ⟨(oneAhead a v).withLookahead lookahead k, ?_, hv, fun text => ?_⟩
  · rw [parser, hv]
    have hanalyse := GrammarDef.analyse_of_accepted hdeeper
    rw [definition] at hanalyse
    simp only [hanalyse]
  · obtain ⟨e, log, hexecute, herrors, hresult⟩ := exists_execute_oneAhead a hv text
    refine ⟨e, log, (hsame text _).trans hexecute, herrors, fun hnone => ?_⟩
    obtain ⟨x, hx⟩ := (herrors.mp hnone).2
    exact ⟨x, hx, fun y hy => hy.unique hx, hresult x hx⟩

end Palette.Calculator
