import Mathlib
import Palette.Proofs.Grammar.Outline
import Palette.Proofs.Vocabulary.Built

/-!
# Grammars that the analysis accepts

An analysis that accepts a grammar went through all its checks: recording found no issue, no rule
is left recursive, and every recorded decision has its lookahead table.

Main statements: `GrammarDef.accepted_of_analyse` and `Grammar.exists_table`.
-/

namespace Palette

/-! ## The tables of the decisions -/

namespace Lookahead

theorem table?_insert_self (key : DecisionKey) (table : DecisionTable) (l : Lookahead) :
    (l.insert key table).table? key = some table := by
  induction l with
  | nil => simp [insert, table?]
  | cons entry rest ih =>
    obtain ⟨k, t⟩ := entry
    rw [insert]
    split
    · simp [table?]
    · next hk =>
      rw [table?, List.lookup_cons, beq_false_of_ne (fun h => hk (by simp [h]))]
      exact ih

theorem table?_insert_of_ne {key key' : DecisionKey} (h : key' ≠ key) (table : DecisionTable)
    (l : Lookahead) : (l.insert key table).table? key' = l.table? key' := by
  induction l with
  | nil => simp [insert, table?, h]
  | cons entry rest ih =>
    obtain ⟨k, t⟩ := entry
    rw [insert]
    split
    · next hk =>
      obtain rfl := beq_iff_eq.mp hk
      simp only [table?, List.lookup_cons, beq_false_of_ne h]
    · simp only [table?, List.lookup_cons] at ih ⊢
      rw [ih]

/-- A table can be replaced but is never taken away. -/
theorem isSome_table?_insert {key key' : DecisionKey} {l : Lookahead}
    (h : (l.table? key').isSome) (table : DecisionTable) :
    ((l.insert key table).table? key').isSome := by
  by_cases hk : key' = key
  · rw [hk, table?_insert_self]
    rfl
  · rwa [table?_insert_of_ne hk]

end Lookahead

namespace Grammar

/-- What the tables of a list of decisions are made of, step by step. -/
theorem lookaheadFrom_cons {g : Grammar} {v : Vocabulary} {budget : Nat} {d : Decision}
    {rest : List Decision} {tables : Lookahead} {memo memo' : PathMemo}
    {result : Lookahead × List Issue}
    (h : g.lookaheadFrom v budget (d :: rest) tables memo = some (result, memo')) :
    ∃ (table : DecisionTable) (between : PathMemo) (more : List Issue),
      g.decisionTable budget d memo = some (table, between) ∧
      g.lookaheadFrom v budget rest (tables.insert d.key table) between
        = some ((result.1, more), memo') := by
  simp only [lookaheadFrom, bind, StateT.bind] at h
  cases ht : g.decisionTable budget d memo with
  | none => rw [ht] at h; cases h
  | some t =>
    rw [ht] at h
    simp only [Option.bind_some] at h
    cases hr : g.lookaheadFrom v budget rest (tables.insert d.key t.1) t.2 with
    | none => rw [hr] at h; cases h
    | some rs =>
      rw [hr] at h
      simp only [Option.bind_some, pure, StateT.pure, Option.some.injEq, Prod.mk.injEq] at h
      refine ⟨t.1, t.2, rs.1.2, rfl, ?_⟩
      rw [hr, ← h.1, ← h.2]

/-- The computation ends with a table for every decision it went through, and with those that
were there before. -/
theorem isSome_table?_lookaheadFrom {g : Grammar} {v : Vocabulary} {budget : Nat}
    {ds : List Decision} {tables : Lookahead} {memo memo' : PathMemo}
    {result : Lookahead × List Issue}
    (h : g.lookaheadFrom v budget ds tables memo = some (result, memo')) {key : DecisionKey}
    (hkey : (tables.table? key).isSome ∨ ∃ d ∈ ds, d.key = key) :
    (result.1.table? key).isSome := by
  induction ds generalizing tables memo result with
  | nil =>
    cases h
    rcases hkey with hkey | ⟨d, hd, -⟩
    · exact hkey
    · cases hd
  | cons d rest ih =>
    obtain ⟨table, between, more, -, hrest⟩ := lookaheadFrom_cons h
    apply ih hrest
    rcases hkey with hkey | ⟨d', hd', rfl⟩
    · exact .inl (Lookahead.isSome_table?_insert hkey table)
    · rcases List.mem_cons.mp hd' with rfl | hd'
      · exact .inl (by rw [Lookahead.table?_insert_self]; rfl)
      · exact .inr ⟨d', hd', rfl⟩

/-- **Every decision of the grammar has its table.** -/
theorem exists_table {g : Grammar} {v : Vocabulary} {budget : Nat} {tables : Lookahead}
    {issues : List Issue} (h : g.lookahead? v budget = some (tables, issues)) {key : DecisionKey}
    (hkey : g.Decides key) : ∃ table, tables.table? key = some table := by
  unfold lookahead? at h
  obtain ⟨⟨result, memo⟩, hfrom, hresult⟩ := Option.map_eq_some_iff.mp h
  have hsome := isSome_table?_lookaheadFrom hfrom (.inr hkey)
  rw [show result = (tables, issues) from hresult] at hsome
  exact Option.isSome_iff_exists.mp hsome

end Grammar

/-! ## What was checked -/

/-- The definition passed all checks, and the parser is what comes of it. -/
structure GrammarDef.Accepted {τ : Type} [Inhabited τ] (d : GrammarDef τ) (config : ParserConfig)
    (p : Parser τ) : Prop where
  vocabulary : p.vocabulary = d.vocabulary
  rules : p.rules = d.rules
  configured : p.config = config.withMaxLookahead config.maxLookahead
  nonempty : d.rules ≠ []
  distinct : duplicates d.ruleNames = []
  start : d.start? config = some p.start
  recorded : (recordRules d.rules).2 = []
  leftRecursion : (recordRules d.rules).1.leftRecursion = []
  lookahead : (recordRules d.rules).1.lookahead? d.vocabulary p.config.maxLookahead
    = some (p.lookahead, [])

namespace GrammarDef

variable {τ : Type} [Inhabited τ] {d : GrammarDef τ} {config : ParserConfig} {p : Parser τ}

/-- An analysis that succeeds went through all checks. -/
theorem accepted_of_analyse (h : d.analyse config = .ok p) : d.Accepted config p := by
  unfold analyse at h
  split at h
  · cases h
  next hrules =>
  dsimp only at h
  split at h
  next start hissues hstart =>
    split at h
    next hleft =>
      split at h
      · next lookahead hlookahead =>
        cases h
        simp only [definitionIssues, List.append_eq_nil_iff, List.map_eq_nil_iff] at hissues
        exact
          { vocabulary := rfl
            rules := rfl
            configured := rfl
            nonempty := by simpa using hrules
            distinct := hissues.1.1
            start := hstart
            recorded := hissues.2
            leftRecursion := hleft
            lookahead := hlookahead }
      · cases h
      · cases h
    next => cases h
  next => cases h

/-- A definition that passes all checks is analysed with success. -/
theorem analyse_of_accepted (h : d.Accepted config p) : d.analyse config = .ok p := by
  obtain ⟨vocabulary, rules, lookahead, start, config'⟩ := p
  obtain ⟨rfl, rfl, rfl, hnonempty, hdistinct, hstart, hrecorded, hleft, hlookahead⟩ := h
  dsimp only at hstart hlookahead
  have hstart' : d.start? (config.withMaxLookahead config.maxLookahead) = some start := hstart
  have hissues : d.definitionIssues (config.withMaxLookahead config.maxLookahead) = [] := by
    unfold definitionIssues
    rw [hdistinct, hrecorded, hstart']
    rfl
  unfold analyse
  rw [if_neg (by simpa using hnonempty)]
  simp only [hissues, hstart', hleft, hlookahead]

/-- The start rule is one of the rules. -/
theorem Accepted.start_lt (h : d.Accepted config p) : p.start < d.rules.length := by
  have hstart := h.start
  unfold start? at hstart
  split at hstart
  · exact (List.findIdx?_eq_some_iff_findIdx_eq.mp hstart).1
  · rw [← Option.some.inj hstart]
    exact List.length_pos_iff.mpr h.nonempty

theorem Accepted.start_lt_size (h : d.Accepted config p) :
    p.start < (recordRules d.rules).1.size := by
  rw [size_recordRules]
  exact h.start_lt

/-! ## Pairs of letters -/

/-- Any number of pairs of the letters a and b. -/
def pairs : GrammarDef Unit :=
  { vocabulary := Vocabulary.letters
    rules := [
      ⟨"pairs", Body.loop 0 () fun _ => Body.call "pair"⟩,
      ⟨"pair", do
        let _ ← Body.take ⟨0⟩
        let _ ← Body.take ⟨1⟩
        return ()⟩] }

/-- The parser of pairs, with one token of lookahead and recovery. -/
def pairsParser : Parser Unit :=
  { vocabulary := Vocabulary.letters, rules := pairs.rules, lookahead := [(⟨0, 0⟩, [[[⟨0⟩]]])],
    start := 0, config := { startRule := none, maxLookahead := 1, recovery := true } }

theorem analyse_pairs : pairs.analyse pairsParser.config = .ok pairsParser := by cbv

theorem isStatic_pairs : pairs.IsStatic := by
  intro rule hrule
  simp only [pairs, List.mem_cons, List.not_mem_nil, or_false] at hrule
  rcases hrule with rfl | rfl
  · exact ⟨[.many 0 [.subrule "pair"]],
      rfl, _, _, rfl, fun _ => ⟨rfl, _, rfl, fun _ => rfl⟩, fun _ => rfl⟩
  · exact ⟨[.consume ⟨0⟩, .consume ⟨1⟩],
      by decide, rfl, _, rfl, fun _ => ⟨by decide, rfl, _, rfl, fun _ => rfl⟩⟩

end GrammarDef

end Palette
