import Palette.Proofs.Grammar.Listing
import Palette.Proofs.Grammar.Termination

/-!
# Executing the empty text

In front of the end of the input no token starts anything. So an option or a repetition is not
entered, a repetition that has to be entered is an error, and of an alternation the alternative is
run that may be empty, of which there is no more than one. What can be passed over in this way
(`Skips`) is what executing the empty text comes through without an error.

It is less than what is nullable: at least one round of a body that is nullable makes a nullable
sequence, but the table of a repetition holds only paths with a token, and none of them is ahead.
Where no repetition has such a body, the two are the same.

Main statement: `Parser.execute_empty`.
-/

namespace Palette

/-! ## What is passed over -/

namespace Grammar

/-- The sequences that are passed over in front of the end of the input. -/
inductive Skips (g : Grammar) : List Production → Prop where
  | nil : Skips g []
  | nonterminal {r body ps} (rule : g.rules[r]? = some body) (inner : Skips g body)
      (rest : Skips g ps) : Skips g (.nonterminal r :: ps)
  | option {number key bodies ps} (rest : Skips g ps) :
    Skips g (.decision number key .option bodies :: ps)
  | many {number key bodies ps} (rest : Skips g ps) :
    Skips g (.decision number key .many bodies :: ps)
  | alternation {number key alternatives sequence ps} (chosen : sequence ∈ alternatives)
      (inner : Skips g sequence) (rest : Skips g ps) :
    Skips g (.decision number key .alternation alternatives :: ps)

variable {g : Grammar} {budget number : Nat} {key : DecisionKey} {p : Production}
  {ps : List Production} {alternatives : List (List Production)} {r : RuleId}

theorem not_skips_terminal (kind : TokenKind) : ¬g.Skips (.terminal kind :: ps) := nofun

theorem not_skips_atLeastOne : ¬g.Skips (.decision number key .atLeastOne alternatives :: ps) :=
  nofun

theorem skips_nonterminal_iff (hr : r < g.size) :
    g.Skips (.nonterminal r :: ps) ↔ g.Skips (g.rule r) ∧ g.Skips ps := by
  constructor
  · intro h
    cases h with
    | nonterminal rule inner rest =>
      rw [Grammar.rule, rule]
      exact ⟨inner, rest⟩
  · exact fun h => .nonterminal (getElem?_rules hr) h.1 h.2

theorem skips_option_iff :
    g.Skips (.decision number key .option alternatives :: ps) ↔ g.Skips ps := by
  constructor
  · intro h
    cases h with
    | option rest => exact rest
  · exact .option

theorem skips_many_iff :
    g.Skips (.decision number key .many alternatives :: ps) ↔ g.Skips ps := by
  constructor
  · intro h
    cases h with
    | many rest => exact rest
  · exact .many

theorem skips_alternation_iff : g.Skips (.decision number key .alternation alternatives :: ps) ↔
    (∃ sequence ∈ alternatives, g.Skips sequence) ∧ g.Skips ps := by
  constructor
  · intro h
    cases h with
    | alternation chosen inner rest => exact ⟨⟨_, chosen, inner⟩, rest⟩
  · rintro ⟨⟨sequence, chosen, inner⟩, rest⟩
    exact .alternation chosen inner rest

theorem Skips.cons (h : g.Skips [p]) (hps : g.Skips ps) : g.Skips (p :: ps) := by
  cases h with
  | nonterminal rule inner _ => exact .nonterminal rule inner hps
  | option _ => exact .option hps
  | many _ => exact .many hps
  | alternation chosen inner _ => exact .alternation chosen inner hps

/-! ## What is passed over is nullable -/

/-- What is passed over opens with nothing, whatever the budget. -/
theorem Skips.opens (h : g.Skips ps) : g.Opens budget ps [] := by
  induction h with
  | nil => exact .nil
  | nonterminal rule _ _ ihinner ih => exact .nonterminal rule ihinner ih
  | option _ ih => exact .optionNone ih
  | many _ ih => exact .manyDone ih
  | alternation chosen _ _ ihinner ih => exact .alternation chosen ihinner ih

theorem Skips.nullable (h : g.Skips ps) : sequenceNullable g.isNullable ps = true :=
  (h.opens : g.Opens 1 ps []).nullable Nat.one_pos

/-- No repetition that has to be entered has a nullable body. -/
def RoundsTakeTokens (g : Grammar) : Prop :=
  ∀ d ∈ g.decisions, d.kind = .atLeastOne →
    sequenceNullable g.isNullable (bodyOf d.alternatives) = false

/-- A nullable sequence is passed over if its nullable productions are. -/
theorem skips_of_sequenceNullable {marked : RuleId → Bool}
    (hps : ∀ p ∈ ps, p.isNullable marked = true → g.Skips [p])
    (h : sequenceNullable marked ps = true) : g.Skips ps := by
  induction ps with
  | nil => exact .nil
  | cons p rest ih =>
    rw [sequenceNullable, Bool.and_eq_true] at h
    obtain ⟨hp, hrest⟩ := List.forall_mem_cons.mp hps
    exact (hp h.1).cons (ih hrest h.2)

/-- A production that is nullable by marks of rules that are passed over is passed over. -/
theorem skips_of_isNullable (hrounds : g.RoundsTakeTokens) {marked : RuleId → Bool}
    (hmarked : ∀ r, marked r = true → r < g.size ∧ g.Skips (g.rule r))
    (hp : p.All (Production.Listed g.decisions)) (h : p.isNullable marked = true) :
    g.Skips [p] := by
  induction hp with
  | terminal here => simp [Production.isNullable] at h
  | @nonterminal r here =>
    obtain ⟨hr, hskips⟩ := hmarked r h
    exact .nonterminal (getElem?_rules hr) hskips .nil
  | @decision number key kind alternatives here inside ih =>
    have hsequence : ∀ sequence ∈ alternatives, sequenceNullable marked sequence = true →
        g.Skips sequence :=
      fun sequence hmem => skips_of_sequenceNullable (ih sequence hmem)
    cases kind with
    | option => exact .option .nil
    | many => exact .many .nil
    | alternation =>
      rw [Production.isNullable, someNullable_eq, List.any_eq_true] at h
      obtain ⟨sequence, hmem, hnull⟩ := h
      exact .alternation hmem (hsequence sequence hmem hnull) .nil
    | atLeastOne =>
      -- The body would be passed over, so it would be nullable.
      rw [Production.isNullable, bodyNullable_eq] at h
      have hbody : g.Skips (bodyOf alternatives) := by
        cases alternatives with
        | nil => exact .nil
        | cons body _ => exact hsequence body List.mem_cons_self h
      have hnot := hrounds _ here rfl
      rw [hbody.nullable] at hnot
      cases hnot

/-- **A nullable rule is passed over** where no repetition that has to be entered has a nullable
body. -/
theorem skips_of_isNullable_rule (hrounds : g.RoundsTakeTokens)
    (hlisted : ∀ r, ListedSequence g.decisions (g.rule r)) (h : g.isNullable r = true) :
    r < g.size ∧ g.Skips (g.rule r) := by
  refine forall_nullable (P := fun r => r < g.size ∧ g.Skips (g.rule r)) ?_ h
  intro marked hmarked r hr hnull
  have hmarks : ∀ r, marked.contains r = true → r < g.size ∧ g.Skips (g.rule r) :=
    fun r hr => hmarked r (List.contains_iff_mem.mp hr)
  exact ⟨hr, skips_of_sequenceNullable
    (fun p hp => skips_of_isNullable hrounds hmarks (hlisted r p hp)) hnull⟩

/-! ## Paths -/

/-- A path is made of the kinds that are asked for. -/
theorem Opens.ne_of_all {kind : TokenKind} {w : Path}
    (hrules : ∀ r, ∀ p ∈ g.rule r, p.All (· ≠ .terminal kind)) (h : g.Opens budget ps w)
    (hps : ∀ p ∈ ps, p.All (· ≠ .terminal kind)) : kind ∉ w := by
  have hmany {number : Nat} {key : DecisionKey} {kind' : DecisionKind}
      {bodies : List (List Production)}
      (h : (Production.decision number key kind' bodies).All (· ≠ .terminal kind)) :
      (Production.decision number key .many bodies).All (· ≠ .terminal kind) :=
    .decision nofun h.inside
  induction h with
  | full | nil => exact List.not_mem_nil
  | terminal _ ih =>
    obtain ⟨hp, hps⟩ := List.forall_mem_cons.mp hps
    rintro (_ | ⟨_, hmem⟩)
    · exact hp.here rfl
    · exact ih hps hmem
  | optionNone _ ih | manyDone _ ih => exact ih (List.forall_mem_cons.mp hps).2
  | @nonterminal b r body ps u w rule inner rest ihinner ih =>
    have hbody : g.rule r = body := by rw [Grammar.rule, rule, Option.getD_some]
    exact List.not_mem_append (ihinner (hbody ▸ hrules r)) (ih (List.forall_mem_cons.mp hps).2)
  | optionSome _ _ ihinner ih =>
    obtain ⟨hp, hps⟩ := List.forall_mem_cons.mp hps
    exact List.not_mem_append (ihinner hp.body) (ih hps)
  | manyMore _ _ ihinner ih =>
    exact List.not_mem_append (ihinner (List.forall_mem_cons.mp hps).1.body) (ih hps)
  | atLeastOne _ _ ihinner ih =>
    obtain ⟨hp, hps⟩ := List.forall_mem_cons.mp hps
    exact List.not_mem_append (ihinner hp.body) (ih (List.forall_mem_cons.mpr ⟨hmany hp, hps⟩))
  | alternation chosen _ _ ihinner ih =>
    obtain ⟨hp, hps⟩ := List.forall_mem_cons.mp hps
    exact List.not_mem_append (ihinner (hp.inside _ chosen)) (ih hps)

theorem ne_terminal_endOfInput_of_listed {ds : List Decision} (h : p.Listed ds) :
    p ≠ .terminal .endOfInput := by
  rintro rfl
  exact h rfl

/-- No path of listed productions has the end of the input. -/
theorem Opens.endOfInput_not_mem {w : Path}
    (hrules : ∀ r, ListedSequence g.decisions (g.rule r)) (h : g.Opens budget ps w)
    (hps : ListedSequence g.decisions ps) : .endOfInput ∉ w :=
  h.ne_of_all (fun r p hp => (hrules r p hp).imp fun _ => ne_terminal_endOfInput_of_listed)
    fun p hp => (hps p hp).imp fun _ => ne_terminal_endOfInput_of_listed

/-- No table of a listed decision has the end of the input. -/
theorem IsTable.endOfInput_not_mem (hrules : ∀ r, ListedSequence g.decisions (g.rule r))
    {d : Decision} {table : DecisionTable} (h : g.IsTable budget d table)
    (hd : d.production.All (Production.Listed g.decisions)) {i : Nat} {paths : List Path}
    (hpaths : table[i]? = some paths) : ∀ w ∈ paths, .endOfInput ∉ w := by
  intro w hw
  obtain ⟨number, key, kind, alternatives⟩ := d
  cases kind with
  | alternation =>
    obtain ⟨sequence, hsequence, hset⟩ := exists_left_of_forall₂ h hpaths
    exact ((hset.mem_iff w).mp hw).endOfInput_not_mem hrules
      (hd.inside sequence (List.mem_of_getElem? hsequence))
  | option | many | atLeastOne =>
    obtain ⟨enter, henter, rfl⟩ := h
    obtain rfl := List.mem_singleton.mp (List.mem_of_getElem? hpaths)
    exact ((henter.mem_iff w).mp (List.mem_filter.mp hw).1).endOfInput_not_mem hrules hd.body

end Grammar

/-! ## In front of the end of the input -/

/-- The grammar describes the rules, the recognizer reads the exact table of every decision, and
there are no tokens. -/
structure Grammar.FacesEnd {τ : Type} (g : Grammar) (rules : List (RuleDef τ))
    (input : RecognizerInput) (budget : Nat) : Prop extends g.Describes rules input where
  listed : ∀ r, ListedSequence g.decisions (g.rule r)
  exact_table : ∀ d ∈ g.decisions, ∃ table, input.lookahead.table? d.key = some table ∧
    g.IsTable budget d table ∧ Unambiguous input.vocabulary table
  tokens : input.tokens = #[]

section

variable {τ : Type} {rules : List (RuleDef τ)} {input : RecognizerInput} {g : Grammar}
  {budget steps number : Nat} {id : RuleId} {site : Site} {kind : DecisionKind}
  {alternatives : List (List Production)} {s t : Recognition}

namespace Grammar.FacesEnd

variable (hg : g.FacesEnd rules input budget)
include hg

theorem eq_endOfInput_of_fitsAhead {n : Nat} {k : TokenKind}
    (h : input.fitsAhead s n k = true) : k = .endOfInput := by
  refine hg.endOfInput k ?_
  rwa [RecognizerInput.fitsAhead, RecognizerInput.ahead, hg.tokens] at h

theorem consume_eq {k : TokenKind} (hk : k ≠ .endOfInput) :
    ∃ message, input.consume s k = (none, input.report s .mismatchedToken message) := by
  have hno (n : Nat) : input.fitsAhead s n k = false :=
    Bool.eq_false_iff.mpr fun h => hk (hg.eq_endOfInput_of_fitsAhead h)
  unfold RecognizerInput.consume
  rw [hno, hno, Bool.and_false]
  exact ⟨_, rfl⟩

/-- Nothing starts here: at a decision, what may be empty is left. -/
theorem exists_table_of_listed (hs : s.stack.head? = some id)
    (hd : (Production.decision number ⟨id, site⟩ kind alternatives).All
      (Production.Listed g.decisions)) :
    ∃ table, input.table? s site = some table ∧
      g.IsTable budget ⟨number, ⟨id, site⟩, kind, alternatives⟩ table ∧
      Unambiguous input.vocabulary table ∧ ∀ i, ¬input.Starting s table i := by
  obtain ⟨table, htable, hexact, hapart⟩ := hg.exact_table _ hd.here
  refine ⟨table, by rw [RecognizerInput.table?, hs]; exact htable, hexact, hapart, ?_⟩
  rintro i ⟨paths, hpaths, w, hw, k, rest, rfl, hfits⟩
  obtain rfl := hg.eq_endOfInput_of_fitsAhead hfits
  exact hexact.endOfInput_not_mem hg.listed hd hpaths _ hw List.mem_cons_self

/-- The body of a decision with a single one is not entered. -/
theorem exists_table_not_entered (hs : s.stack.head? = some id)
    (hd : (Production.decision number ⟨id, site⟩ kind alternatives).All
      (Production.Listed g.decisions)) (hkind : kind ≠ .alternation) :
    ∃ table, input.table? s site = some table ∧ input.enters s table = false := by
  obtain ⟨table, htable, hexact, -, hno⟩ := hg.exists_table_of_listed hs hd
  refine ⟨table, htable, beq_false_of_ne fun hpredict => ?_⟩
  rcases RecognizerInput.predict_eq_some hpredict with hstart | ⟨-, paths, hpaths, hnil⟩
  · exact hno 0 hstart
  · obtain ⟨enter, rfl⟩ : ∃ enter : List Path, table = [enter.filter (!·.isEmpty)] := by
      cases kind with
      | alternation => exact absurd rfl hkind
      | option | many | atLeastOne =>
        obtain ⟨enter, -, rfl⟩ := hexact
        exact ⟨enter, rfl⟩
    obtain rfl := Option.some.inj hpaths
    simp at hnil

/-- **Of an alternation the one alternative is predicted that may be empty**, if there is one: no
other is passed over. -/
theorem exists_table_alternation (hs : s.stack.head? = some id)
    (hd : (Production.decision number ⟨id, site⟩ .alternation alternatives).All
      (Production.Listed g.decisions)) :
    ∃ table, input.table? s site = some table ∧
      (∀ i, input.predict s table = some i → ∃ sequence, alternatives[i]? = some sequence ∧
        ((∃ sequence ∈ alternatives, g.Skips sequence) ↔ g.Skips sequence)) ∧
      (input.predict s table = none → ¬∃ sequence ∈ alternatives, g.Skips sequence) := by
  obtain ⟨table, htable, hexact, hapart, hno⟩ := hg.exists_table_of_listed hs hd
  have hempty : ∀ {i : Nat} {sequence : List Production}, alternatives[i]? = some sequence →
      g.Skips sequence → RecognizerInput.MayBeEmpty table i := by
    intro i sequence hsequence hskips
    obtain ⟨paths, hpaths, hset⟩ := exists_right_of_forall₂ hexact hsequence
    exact ⟨paths, hpaths, (hset.mem_iff []).mpr hskips.opens⟩
  refine ⟨table, htable, fun i hpredict => ?_, ?_⟩
  · have hi : RecognizerInput.MayBeEmpty table i :=
      (RecognizerInput.predict_eq_some hpredict).elim (absurd · (hno i)) And.right
    have ⟨paths, hpaths, _⟩ := hi
    obtain ⟨sequence, hsequence, -⟩ := exists_left_of_forall₂ hexact hpaths
    refine ⟨sequence, hsequence, ?_, fun h => ⟨_, List.mem_of_getElem? hsequence, h⟩⟩
    rintro ⟨other, hmem, hskips⟩
    obtain ⟨j, hj⟩ := List.mem_iff_getElem?.mp hmem
    obtain rfl := RecognizerInput.mayBeEmpty_unique hapart hi (hempty hj hskips)
    exact Option.some.inj (hj.symm.trans hsequence) ▸ hskips
  · rintro hpredict ⟨sequence, hmem, hskips⟩
    obtain ⟨i, hi⟩ := List.mem_iff_getElem?.mp hmem
    exact (RecognizerInput.predict_eq_none hpredict i).2 (hempty hi hskips)

end Grammar.FacesEnd

/-! ## Bodies -/

/-- How a run ends: with a value and without an error if that is as it should be, and without a
value and with an error otherwise. -/
def Outcome.PassesIff {α : Type} (passes : Prop) (s : Recognition) (o : Outcome α) : Prop :=
  ∀ v t, o = .finished v t →
    passes ∧ v.isSome ∧ t.errors = s.errors ∧ t.stack = s.stack ∨
      ¬passes ∧ v = none ∧ t.errors ≠ []

namespace Outcome.PassesIff

variable {α β : Type} {passes passes' : Prop} {o : Outcome α}

theorem congr (h : o.PassesIff passes s) (hiff : passes' ↔ passes) : o.PassesIff passes' s :=
  propext hiff ▸ h

theorem finished_some (h : passes) (a : α) : Outcome.PassesIff passes s (.finished (some a) s) := by
  rintro _ _ ⟨⟩
  exact .inl ⟨h, rfl, rfl, rfl⟩

/-- What is refused leaves an error. -/
theorem report (h : ¬passes) (input : RecognizerInput) (s : Recognition)
    (error : RecognitionErrorKind) (message : String) :
    Outcome.PassesIff (α := α) passes s (.finished none (input.report s error message)) := by
  rintro _ _ ⟨⟩
  exact .inr ⟨h, rfl, List.append_ne_nil_of_right_ne_nil _ (List.cons_ne_nil _ _)⟩

/-- A static body goes on behind a call that came to a value, and only there. -/
theorem andThen_run {find : String → Option RuleId} {invoke : RuleId → Recognition → Outcome τ}
    {steps : Nat} (h : o.PassesIff passes s) (next : Option α → Body τ β)
    (hfail : next none = .fail)
    (hnext : ∀ a t, t.stack = s.stack →
      ((next (some a)).run input find invoke steps t).PassesIff passes' t) :
    (o.andThen fun v t => (next v).run input find invoke steps t).PassesIff (passes ∧ passes')
      s := by
  intro v u hu
  obtain ⟨w, t, ho, hu⟩ := andThen_eq_finished hu
  rcases h w t ho with ⟨hpasses, hvalue, herrors, hstack⟩ | ⟨hnot, rfl, herrors⟩
  · obtain ⟨a, rfl⟩ := Option.isSome_iff_exists.mp hvalue
    rcases hnext a t hstack v u hu with ⟨hpasses', hvalue', herrors', hstack'⟩ | ⟨hnot, rest⟩
    · exact .inl ⟨⟨hpasses, hpasses'⟩, hvalue', herrors'.trans herrors, hstack'.trans hstack⟩
    · exact .inr ⟨fun hboth => hnot hboth.2, rest⟩
  · rw [hfail] at hu
    obtain ⟨rfl, rfl⟩ := Outcome.finished.inj hu
    exact .inr ⟨fun hboth => hnot hboth.1, rfl, herrors⟩

end Outcome.PassesIff

/-- No round of a repetition is begun. -/
theorem repeatRounds_passesIff {σ : Type} {table : DecisionTable}
    (htable : input.table? s site = some table) (henters : input.enters s table = false)
    (round : σ → Recognition → Outcome σ) (steps : Nat) (a : σ) :
    (repeatRounds input site round steps a s).PassesIff True s := by
  cases steps with
  | zero => exact nofun
  | succ steps =>
    rw [repeatRounds, htable]
    simp only [henters, Bool.false_eq_true, if_false]
    exact .finished_some trivial a

/-- **A body passes just when what was recorded of it is passed over.** -/
theorem Body.run_passesIff (hg : g.FacesEnd rules input budget)
    {invoke : RuleId → Recognition → Outcome τ}
    (hinvoke : ∀ r < g.size, ∀ s, (invoke r s).PassesIff (g.Skips (g.rule r)) s) {α : Type}
    {b : Body τ α} {calls : List Call} {ps : List Production} (hb : b.Makes calls)
    (hps : Recorded (ruleId? rules) id g.Decides calls ps)
    (hlisted : ListedSequence g.decisions ps) (hs : s.stack.head? = some id) :
    (b.run input (ruleId? rules) invoke steps s).PassesIff (g.Skips ps) s := by
  -- Along the body, the outline and its productions lose one call after the other. Rounds and the
  -- bodies of options are never run, only alternatives are.
  induction b generalizing calls ps s with
  | done a =>
    obtain rfl := hb
    cases hps
    exact .finished_some .nil a
  | fail => exact hb.elim
  | consume kind next ih =>
    obtain ⟨hkind, hfail, rest, rfl, -⟩ := hb
    obtain _ | hrest := hps
    obtain ⟨message, hconsume⟩ := hg.consume_eq (s := s) hkind
    simp only [run, hconsume, hfail]
    exact .report (Grammar.not_skips_terminal kind) input s _ message
  | subrule name next ih =>
    obtain ⟨hfail, rest, rfl, hnext⟩ := hb
    cases hps with
    | @subrule _ r _ _ hfound hrest =>
      have hr := hg.lt_size hfound
      simp only [run, hfound]
      refine .congr ?_ (Grammar.skips_nonterminal_iff hr)
      exact (hinvoke r hr s).andThen_run next hfail fun v t hstack =>
        ih _ (hnext v) hrest hlisted.tail (hstack ▸ hs)
  | option site body next ihbody ih =>
    obtain ⟨hfail, inner, rest, rfl, hbody, hnext⟩ := hb
    cases hps with
    | option hkey hinner hrest =>
      obtain ⟨table, htable, henters⟩ := hg.exists_table_not_entered hs hlisted.head
        (by decide)
      simp only [run, htable, henters, Bool.false_eq_true, if_false]
      exact .congr (ih _ (hnext none) hrest hlisted.tail hs) Grammar.skips_option_iff
  | many site initial round next ihround ih =>
    obtain ⟨hfail, inner, rest, rfl, hround, hnext⟩ := hb
    cases hps with
    | many hkey hinner hrest =>
      obtain ⟨table, htable, henters⟩ := hg.exists_table_not_entered hs hlisted.head
        (by decide)
      have hnone := repeatRounds_passesIff htable henters
        (fun a s => (round a).run input (ruleId? rules) invoke steps s) steps initial
      refine .congr (hnone.andThen_run next hfail fun a t hstack =>
        ih _ (hnext a) hrest hlisted.tail (hstack ▸ hs)) ?_
      rw [Grammar.skips_many_iff, true_and]
  | atLeastOne site initial round next ihround ih =>
    obtain ⟨hfail, inner, rest, rfl, hround, hnext⟩ := hb
    cases hps with
    | atLeastOne hkey hinner hrest =>
      obtain ⟨table, htable, henters⟩ := hg.exists_table_not_entered hs hlisted.head
        (by decide)
      simp only [run, htable, Option.filter_some, henters, Bool.not_false, if_true, hfail]
      exact .report Grammar.not_skips_atLeastOne input s _ _
  | choose site count alternatives blank next ihalt ih =>
    obtain ⟨hfail, inner, rest, rfl, hlen, halt, hnext⟩ := hb
    cases hps with
    | choose hkey hcount hbranches hrest =>
      obtain ⟨table, htable, hsome, hnone⟩ := hg.exists_table_alternation hs hlisted.head
      simp only [run, htable]
      refine .congr ?_ Grammar.skips_alternation_iff
      cases hpredict : input.predict s table with
      | none =>
        simp only [Option.bind_none, hfail]
        exact .report (fun h => hnone hpredict h.1) input s _ _
      | some i =>
        obtain ⟨sequence, hsequence, hiff⟩ := hsome i hpredict
        have hi : i < inner.length := hcount ▸ (List.getElem?_eq_some_iff.mp hsequence).1
        have hbranch := List.getElem?_eq_getElem hi
        simp only [Option.bind_some, dif_pos (hlen ▸ hi : i < count)]
        have hinside : ListedSequence g.decisions sequence :=
          hlisted.head.inside sequence (List.mem_of_getElem? hsequence)
        refine .andThen_run (.congr ?_ hiff) next hfail fun v t hstack =>
          ih _ (hnext v) hrest hlisted.tail (hstack ▸ hs)
        exact ihalt ⟨i, hlen ▸ hi⟩ (halt _ _ hbranch) (hbranches i _ _ hbranch hsequence) hinside hs
  | action event next ih => exact ih hb hps hlisted (s := { s with log := s.log ++ [event] }) hs
  | lookahead number next ih => exact hb.elim
  | recording next ih => exact hb.elim
  | progress next ih => exact hb.elim

/-! ## Rules -/

/-- A rule passes just when its sequence is passed over, if the rules that it invokes do. -/
theorem enterRule_passesIff (hg : g.FacesEnd rules input budget)
    {invoke : RuleId → Recognition → Outcome τ}
    (hinvoke : ∀ r < g.size, ∀ s, (invoke r s).PassesIff (g.Skips (g.rule r)) s) {r : RuleId}
    (hr : r < g.size) (s : Recognition) :
    (enterRule rules input invoke steps r s).PassesIff (g.Skips (g.rule r)) s := by
  intro v u hu
  have hrule := List.getElem?_eq_getElem (hg.size ▸ hr)
  obtain ⟨calls, hcalls, hrecorded⟩ := hg.outline r _ hrule
  simp only [enterRule, hrule] at hu
  obtain ⟨w, t, ht, hu⟩ := Outcome.andThen_eq_finished hu
  obtain ⟨rfl, rfl⟩ := Outcome.finished.inj hu
  have hbody := Body.run_passesIff hg hinvoke hcalls hrecorded (hg.listed r)
    (s := { s with stack := r :: s.stack }) rfl w t ht
  rcases hbody with ⟨hskips, hvalue, herrors, hstack⟩ | hrefused
  · refine .inl ⟨hskips, hvalue, herrors, ?_⟩
    show t.stack.tail = s.stack
    rw [hstack]
    rfl
  · exact .inr hrefused

/-- **A rule passes just when its sequence is passed over.** -/
theorem invokeRule_passesIff (hg : g.FacesEnd rules input budget) {r : RuleId} (hr : r < g.size)
    (s : Recognition) : (invokeRule rules input steps r s).PassesIff (g.Skips (g.rule r)) s := by
  induction steps generalizing r s with
  | zero => exact nofun
  | succ steps ih => exact enterRule_passesIff hg (fun r hr s => ih hr s) hr s

end

/-! ## The empty text -/

section

variable {τ : Type} [Inhabited τ] {d : GrammarDef τ} {config : ParserConfig} {p : Parser τ}

/-- With no tokens, the parser of an accepted grammar of static bodies faces the end of the
input. -/
theorem GrammarDef.Accepted.facesEnd (h : d.Accepted config p) (hvoc : d.vocabulary.Consistent)
    (hstatic : d.IsStatic) (text : String) :
    (recordRules d.rules).1.FacesEnd p.rules (p.input text []) p.config.maxLookahead where
  toDescribes := h.describes hvoc hstatic text []
  listed := hstatic.listed
  exact_table _ he := h.exists_exact_table he
  tokens := rfl

theorem Vocabulary.tokenize_empty (v : Vocabulary) : v.tokenize "" = ⟨[], []⟩ := by
  simp [tokenize, scan, Lexer.scanFrom, Lexer.flush]

namespace Parser

/-- Recognizing no tokens leaves no error just when the start rule is passed over. -/
theorem errors_recognizeWithin_eq_nil_iff (hacc : d.Accepted config p)
    (hvoc : d.vocabulary.Consistent) (hstatic : d.IsStatic) {steps : Nat} {text : String}
    {v : Option τ} {s : Recognition} (h : p.recognizeWithin steps text [] = .finished v s) :
    s.errors = [] ↔ (recordRules d.rules).1.Skips ((recordRules d.rules).1.rule p.start) := by
  have hg := hacc.facesEnd hvoc hstatic text
  have hstart := hacc.start_lt_size
  obtain ⟨w, t, ht, h⟩ := Outcome.andThen_eq_finished h
  rcases invokeRule_passesIff hg hstart .start w t ht with
    ⟨hskips, hvalue, herrors, -⟩ | ⟨hnot, rfl, herrors⟩
  · obtain ⟨a, rfl⟩ := Option.isSome_iff_exists.mp hvalue
    have hend : ¬t.position < (p.input text []).tokens.size := Nat.not_lt_zero _
    simp only [hend, if_false] at h
    obtain ⟨-, rfl⟩ := Outcome.finished.inj h
    exact iff_of_true herrors hskips
  · obtain ⟨-, rfl⟩ := Outcome.finished.inj h
    exact iff_of_false herrors hnot

/-- **Executing the empty text** ends, and without an error just when the start rule is passed over;
then the rule is nullable. If no repetition that has to be entered has a nullable body, there is no
error just when the start rule is nullable. -/
theorem execute_empty (hvoc : d.vocabulary.Consistent) (hstatic : d.IsStatic)
    (hp : d.analyse config = .ok p) :
    ∃ e log, p.execute "" = some (e, log) ∧
      (e.errors = [] ↔
        (recordRules d.rules).1.Skips ((recordRules d.rules).1.rule p.start)) ∧
      (e.errors = [] → (recordRules d.rules).1.isNullable p.start = true) ∧
      ((recordRules d.rules).1.RoundsTakeTokens →
        (e.errors = [] ↔ (recordRules d.rules).1.isNullable p.start = true)) := by
  have hacc := GrammarDef.accepted_of_analyse hp
  have hstart := hacc.start_lt_size
  obtain ⟨v, s, hrun⟩ := hacc.recognizeWithin_ends hvoc hstatic "" []
  have hskips := errors_recognizeWithin_eq_nil_iff hacc hvoc hstatic hrun
  have hexecute : p.execute "" = some (⟨v, allErrors [] s.errors⟩, s.log) := by
    refine executeWithin_eq_some_iff.mpr ⟨v, s, ?_, ?_, rfl⟩
    · rw [Vocabulary.tokenize_empty]
      exact hrun
    · rw [Vocabulary.tokenize_empty]
  have herrors : allErrors [] s.errors = [] ↔ s.errors = [] := List.map_eq_nil_iff
  have hnullable (h : (recordRules d.rules).1.Skips ((recordRules d.rules).1.rule p.start)) :
      (recordRules d.rules).1.isNullable p.start = true :=
    Grammar.isNullable_of_sequenceNullable hstart h.nullable
  refine ⟨_, _, hexecute, herrors.trans hskips, fun h => ?_, fun hrounds => ⟨fun h => ?_, ?_⟩⟩
  · exact hnullable (hskips.mp (herrors.mp h))
  · exact hnullable (hskips.mp (herrors.mp h))
  · intro h
    exact herrors.mpr (hskips.mpr
      (Grammar.skips_of_isNullable_rule hrounds hstatic.listed h).2)

end Parser

end

namespace GrammarDef

/-- No pairs at all are pairs too, and no error. -/
theorem execute_empty_pairs :
    Vocabulary.letters.Consistent ∧ pairs.IsStatic ∧
      pairs.analyse pairsParser.config = .ok pairsParser ∧
      (recordRules pairs.rules).1.RoundsTakeTokens ∧
      (recordRules pairs.rules).1.isNullable pairsParser.start = true ∧
      ∃ e log, pairsParser.execute "" = some (e, log) ∧ e.errors = [] := by
  have hrounds : (recordRules pairs.rules).1.RoundsTakeTokens := by
    intro d hd hkind
    obtain rfl := List.mem_singleton.mp hd
    cases hkind
  have hnullable : (recordRules pairs.rules).1.isNullable pairsParser.start = true := by cbv
  obtain ⟨e, log, hexecute, -, -, hiff⟩ :=
    Parser.execute_empty Vocabulary.consistent_letters isStatic_pairs analyse_pairs
  exact ⟨Vocabulary.consistent_letters, isStatic_pairs, analyse_pairs, hrounds, hnullable, e, log,
    hexecute, (hiff hrounds).mpr hnullable⟩

/-! ## Rounds that may be empty -/

/-- At least one letter a, each of which may be left out. -/
def optionals : GrammarDef Unit :=
  { vocabulary := Vocabulary.letters
    rules := [⟨"optionals", Body.atLeastOne 0 () (fun _ => do
      let _ ← Body.perhaps 1 (Body.take ⟨0⟩)
      return ()) Body.orFail⟩] }

/-- The parser of optional letters, with one token of lookahead. -/
def optionalsParser : Parser Unit :=
  { vocabulary := Vocabulary.letters, rules := optionals.rules,
    lookahead := [(⟨0, 1⟩, [[[⟨0⟩]]]), (⟨0, 0⟩, [[[⟨0⟩]]])], start := 0,
    config := { startRule := none, maxLookahead := 1, recovery := false } }

theorem isStatic_optionals : optionals.IsStatic := by
  intro rule hrule
  obtain rfl := List.mem_singleton.mp hrule
  exact ⟨[.atLeastOne 0 [.option 1 [.consume ⟨0⟩]]], rfl, _, _, rfl,
    fun _ => (Body.Makes.perhaps 1 (.take (by decide))).bind fun _ => .pure (), fun _ => rfl⟩

/-- A rule that is nullable need not be passed over: here the one round that is asked for may be
empty, but the empty text is refused. -/
theorem execute_empty_optionals :
    Vocabulary.letters.Consistent ∧ optionals.IsStatic ∧
      optionals.analyse optionalsParser.config = .ok optionalsParser ∧
      (recordRules optionals.rules).1.isNullable optionalsParser.start = true ∧
      ∃ e log, optionalsParser.execute "" = some (e, log) ∧
        e.recognitionErrors.map (·.kind) = [.earlyExit] := by
  have hanalyse : optionals.analyse optionalsParser.config = .ok optionalsParser := by cbv
  have hnullable : (recordRules optionals.rules).1.isNullable optionalsParser.start = true := by
    cbv
  have hrun : (optionalsParser.execute "").map (fun r => r.1.recognitionErrors.map (·.kind))
      = some [.earlyExit] := by cbv
  obtain ⟨⟨e, log⟩, hexecute, hkinds⟩ := Option.map_eq_some_iff.mp hrun
  exact ⟨Vocabulary.consistent_letters, isStatic_optionals, hanalyse, hnullable, e, log, hexecute,
    hkinds⟩

end GrammarDef

end Palette
