import Mathlib.Data.List.Forall2
import Palette.Grammar.Parser

/-!
# Static bodies and what is recorded of them

A static body makes the same calls whatever the answers to them are, and gives up as soon as one
fails. Its calls make up its outline. Recording a static body writes its outline down: every call
becomes a production, and every decision on the way is among the recorded ones.

Main statement: the recorded sequence of a rule with a static body is its outline
(`recorded_recordRules`).
-/

namespace Palette

/-! ## Outlines -/

/-- A call of a primitive, with what a body calls inside of it. -/
inductive Call where
  | consume (kind : TokenKind)
  | subrule (name : String)
  | option (site : Site) (body : List Call)
  | many (site : Site) (round : List Call)
  | atLeastOne (site : Site) (round : List Call)
  | choose (site : Site) (alternatives : List (List Call))

/--
The body makes just these calls, whatever is answered, and gives up after a failure; it has none
of its own. Actions may occur anywhere. The end of the input is never asked for, nor anything
about the run.
-/
def Body.Makes {τ α : Type} : Body τ α → List Call → Prop
  | done _, calls => calls = []
  | fail, _ => False
  | consume kind next, calls =>
    kind ≠ .endOfInput ∧ next none = fail ∧
      ∃ rest, calls = .consume kind :: rest ∧ ∀ t, (next (some t)).Makes rest
  | subrule name next, calls =>
    next none = fail ∧ ∃ rest, calls = .subrule name :: rest ∧ ∀ v, (next (some v)).Makes rest
  | option site body next, calls =>
    next none = fail ∧ ∃ inner rest, calls = .option site inner :: rest ∧ body.Makes inner ∧
      ∀ v, (next (some v)).Makes rest
  | many site _ round next, calls =>
    next none = fail ∧ ∃ inner rest, calls = .many site inner :: rest ∧
      (∀ a, (round a).Makes inner) ∧ ∀ a, (next (some a)).Makes rest
  | atLeastOne site _ round next, calls =>
    next none = fail ∧ ∃ inner rest, calls = .atLeastOne site inner :: rest ∧
      (∀ a, (round a).Makes inner) ∧ ∀ a, (next (some a)).Makes rest
  | choose site count alternatives _ next, calls =>
    next none = fail ∧ ∃ inner rest, calls = .choose site inner :: rest ∧ inner.length = count ∧
      (∀ (i : Fin count) (branch : List Call), inner[i.val]? = some branch →
        (alternatives i).Makes branch) ∧
      ∀ v, (next (some v)).Makes rest
  | action _ next, calls => next.Makes calls
  | lookahead _ _, _ => False
  | recording _, _ => False
  | progress _, _ => False

namespace Body.Makes

variable {τ α β σ : Type}

theorem pure (a : α) : (Pure.pure a : Body τ α).Makes [] := rfl

/-- One static body behind another makes its calls behind those of the other. -/
theorem bind {b : Body τ α} {f : α → Body τ β} {calls more : List Call} (h : b.Makes calls)
    (hf : ∀ a, (f a).Makes more) : (b >>= f).Makes (calls ++ more) := by
  have hfail {b : Body τ α} (h : b = fail) : (b >>= f) = fail := by
    rw [h]
    rfl
  induction b generalizing calls with
  | done a =>
    obtain rfl := h
    exact hf a
  | fail => exact h.elim
  | consume kind next ih =>
    obtain ⟨hkind, hnone, rest, rfl, hnext⟩ := h
    exact ⟨hkind, hfail hnone, _, rfl, fun t => ih _ (hnext t) hf hfail⟩
  | subrule name next ih =>
    obtain ⟨hnone, rest, rfl, hnext⟩ := h
    exact ⟨hfail hnone, _, rfl, fun v => ih _ (hnext v) hf hfail⟩
  | option site body next _ ih =>
    obtain ⟨hnone, inner, rest, rfl, hbody, hnext⟩ := h
    exact ⟨hfail hnone, inner, _, rfl, hbody, fun v => ih _ (hnext v) hf hfail⟩
  | many site initial round next _ ih =>
    obtain ⟨hnone, inner, rest, rfl, hround, hnext⟩ := h
    exact ⟨hfail hnone, inner, _, rfl, hround, fun a => ih _ (hnext a) hf hfail⟩
  | atLeastOne site initial round next _ ih =>
    obtain ⟨hnone, inner, rest, rfl, hround, hnext⟩ := h
    exact ⟨hfail hnone, inner, _, rfl, hround, fun a => ih _ (hnext a) hf hfail⟩
  | choose site count alternatives blank next _ ih =>
    obtain ⟨hnone, inner, rest, rfl, hlen, halt, hnext⟩ := h
    exact ⟨hfail hnone, inner, _, rfl, hlen, halt, fun v => ih _ (hnext v) hf hfail⟩
  | action event next ih => exact ih h hf hfail
  | lookahead number next _ => exact h.elim
  | recording next _ => exact h.elim
  | progress next _ => exact h.elim

theorem take {kind : TokenKind} (hkind : kind ≠ .endOfInput) :
    (Body.take kind : Body τ Token).Makes [.consume kind] :=
  ⟨hkind, rfl, [], rfl, fun _ => rfl⟩

theorem call (name : String) : (Body.call name : Body τ τ).Makes [.subrule name] :=
  ⟨rfl, [], rfl, fun _ => rfl⟩

theorem perhaps (site : Site) {b : Body τ α} {calls : List Call} (h : b.Makes calls) :
    (Body.perhaps site b).Makes [.option site calls] :=
  ⟨rfl, calls, [], rfl, h, fun _ => rfl⟩

theorem loop (site : Site) (initial : σ) {round : σ → Body τ σ} {calls : List Call}
    (h : ∀ a, (round a).Makes calls) : (Body.loop site initial round).Makes [.many site calls] :=
  ⟨rfl, calls, [], rfl, h, fun _ => rfl⟩

theorem oneOf (site : Site) (blank : α) {alternatives : List (Body τ α)}
    {calls : List (List Call)} (h : List.Forall₂ Body.Makes alternatives calls) :
    (Body.oneOf site blank alternatives).Makes [.choose site calls] := by
  refine ⟨rfl, calls, [], rfl, h.length_eq.symm, fun i branch hbranch => ?_, fun _ => rfl⟩
  obtain ⟨hi, rfl⟩ := List.getElem?_eq_some_iff.mp hbranch
  exact h.get i.isLt hi

end Body.Makes

/-- Whether the bodies of all rules are static. -/
def GrammarDef.IsStatic {τ : Type} (d : GrammarDef τ) : Prop :=
  ∀ rule ∈ d.rules, ∃ calls, rule.body.Makes calls

/--
The productions are the calls written down for the rule `id`: rules stand in the place of their
names, and the keys of the decisions are among those that `known` holds of.
-/
inductive Recorded (find : String → Option RuleId) (id : RuleId) (known : DecisionKey → Prop) :
    List Call → List Production → Prop where
  | nil : Recorded find id known [] []
  | consume {kind calls ps} (rest : Recorded find id known calls ps) :
    Recorded find id known (.consume kind :: calls) (.terminal kind :: ps)
  | subrule {name r calls ps} (found : find name = some r)
      (rest : Recorded find id known calls ps) :
    Recorded find id known (.subrule name :: calls) (.nonterminal r :: ps)
  | option {site number inner qs calls ps} (key : known ⟨id, site⟩)
      (body : Recorded find id known inner qs) (rest : Recorded find id known calls ps) :
    Recorded find id known (.option site inner :: calls)
      (.decision number ⟨id, site⟩ .option [qs] :: ps)
  | many {site number inner qs calls ps} (key : known ⟨id, site⟩)
      (round : Recorded find id known inner qs) (rest : Recorded find id known calls ps) :
    Recorded find id known (.many site inner :: calls)
      (.decision number ⟨id, site⟩ .many [qs] :: ps)
  | atLeastOne {site number inner qs calls ps} (key : known ⟨id, site⟩)
      (round : Recorded find id known inner qs) (rest : Recorded find id known calls ps) :
    Recorded find id known (.atLeastOne site inner :: calls)
      (.decision number ⟨id, site⟩ .atLeastOne [qs] :: ps)
  | choose {site number inner alternatives calls ps} (key : known ⟨id, site⟩)
      (length : alternatives.length = inner.length)
      (branches : ∀ (i : Nat) (branch : List Call) (qs : List Production),
        inner[i]? = some branch → alternatives[i]? = some qs → Recorded find id known branch qs)
      (rest : Recorded find id known calls ps) :
    Recorded find id known (.choose site inner :: calls)
      (.decision number ⟨id, site⟩ .alternation alternatives :: ps)

/-- Every alternative of a choice was recorded as one of the alternatives of its decision. -/
theorem Recorded.exists_branch {τ β : Type} {find : String → Option RuleId} {id : RuleId}
    {known : DecisionKey → Prop} {count : Nat} {bodies : Fin count → Body τ β}
    {inner : List (List Call)} {alternatives : List (List Production)}
    (hcount : inner.length = count) (hlen : alternatives.length = inner.length)
    (hmakes : ∀ (i : Fin count) (branch : List Call), inner[i.val]? = some branch →
      (bodies i).Makes branch)
    (hrecorded : ∀ (i : Nat) (branch : List Call) (qs : List Production),
      inner[i]? = some branch → alternatives[i]? = some qs → Recorded find id known branch qs)
    (i : Fin count) :
    ∃ branch qs, qs ∈ alternatives ∧ (bodies i).Makes branch ∧
      Recorded find id known branch qs := by
  have hi : i.val < inner.length := hcount ▸ i.isLt
  have hbranch := List.getElem?_eq_getElem hi
  have hsequence := List.getElem?_eq_getElem (hlen ▸ hi)
  exact ⟨_, _, List.mem_of_getElem? hsequence, hmakes i _ hbranch,
    hrecorded i _ _ hbranch hsequence⟩

/-! ## Recording only adds -/

namespace Recorder

/-- What was recorded is still there. -/
structure Extends (r r' : Recorder) : Prop where
  decisions : r.decisions <+: r'.decisions
  issues : r.issues <+: r'.issues

variable {r r' r'' : Recorder}

theorem Extends.refl (r : Recorder) : r.Extends r := ⟨List.prefix_refl _, List.prefix_refl _⟩

theorem Extends.trans (h : r.Extends r') (h' : r'.Extends r'') : r.Extends r'' :=
  ⟨h.decisions.trans h'.decisions, h.issues.trans h'.issues⟩

/-- Where there is no issue in the end, there was none on the way. -/
theorem Extends.issues_eq_nil (h : r.Extends r') (hi : r'.issues = []) : r.issues = [] :=
  List.prefix_nil.mp (hi ▸ h.issues)

theorem Extends.mem_decisions (h : r.Extends r') {d : Decision} (hd : d ∈ r.decisions) :
    d ∈ r'.decisions :=
  h.decisions.subset hd

theorem extends_report (r : Recorder) (issue : Issue) : r.Extends (r.report issue) := by
  unfold report
  split
  · exact .refl r
  · exact ⟨List.prefix_refl _, List.prefix_append _ _⟩

@[simp] theorem decisions_report (r : Recorder) (issue : Issue) :
    (r.report issue).decisions = r.decisions := by
  unfold report
  split <;> rfl

theorem decisions_decide (r : Recorder) (rule : String) (key : DecisionKey) (kind : DecisionKind)
    (alternatives : List (List Production)) :
    (r.decide rule key kind alternatives).2.decisions
      = r.decisions ++ [⟨r.decisions.length, key, kind, alternatives⟩] := by
  simp only [decide]
  split <;> split <;> simp

theorem extends_decide (r : Recorder) (rule : String) (key : DecisionKey) (kind : DecisionKind)
    (alternatives : List (List Production)) :
    r.Extends (r.decide rule key kind alternatives).2 := by
  refine ⟨decisions_decide r rule key kind alternatives ▸ List.prefix_append _ _, ?_⟩
  have hreport := extends_report r (.sharedDecisionPoint rule key.site)
  simp only [decide]
  split <;> split
  · exact hreport.issues.trans (List.prefix_append _ _)
  · exact List.prefix_append _ _
  · exact hreport.issues
  · exact List.prefix_refl _

/-- A decision that was recorded is among the decisions, under its key. -/
theorem exists_mem_decide (r : Recorder) (rule : String) (key : DecisionKey) (kind : DecisionKind)
    (alternatives : List (List Production)) :
    ∃ d ∈ (r.decide rule key kind alternatives).2.decisions, d.key = key :=
  ⟨⟨r.decisions.length, key, kind, alternatives⟩, by simp [decisions_decide], rfl⟩

section Collect

variable {ι β : Type} {record : ι → Recorder → β × Recorder}

theorem extends_collect (h : ∀ (i : ι) (r : Recorder), r.Extends (record i r).2) (l : List ι)
    (r : Recorder) : r.Extends (collect record l r).2 := by
  induction l generalizing r with
  | nil => exact .refl r
  | cons i rest ih => exact (h i r).trans (ih _)

theorem length_collect (l : List ι) (r : Recorder) :
    (collect record l r).1.length = l.length := by
  induction l generalizing r with
  | nil => rfl
  | cons i rest ih => exact congrArg Nat.succ (ih _)

/-- Everything that is recorded in a row is recorded at some time before its end. -/
theorem getElem?_collect (h : ∀ (i : ι) (r : Recorder), r.Extends (record i r).2) {l : List ι}
    {k : Nat} {i : ι} (hk : l[k]? = some i) (r : Recorder) :
    ∃ r', (record i r').2.Extends (collect record l r).2 ∧
      (collect record l r).1[k]? = some (record i r').1 := by
  induction l generalizing k r with
  | nil => cases hk
  | cons j rest ih =>
    cases k with
    | zero =>
      obtain rfl := Option.some.inj hk
      exact ⟨r, extends_collect h rest _, rfl⟩
    | succ k => exact ih hk _

end Collect

end Recorder

variable {τ : Type} [Inhabited τ]

theorem Body.extends_record {α : Type} (rule : RecordedRule) (b : Body τ α) (r : Recorder) :
    r.Extends (b.record rule r).2 := by
  induction b generalizing r with
  | done a => exact .refl r
  | fail => exact .refl r
  | consume kind next ih => exact ih _ r
  | subrule name next ih =>
    rw [record]
    split
    · exact (Recorder.extends_report r _).trans (ih _ _)
    · exact ih _ r
  | option site body next ihbody ih =>
    exact (ihbody r).trans ((Recorder.extends_decide ..).trans (ih _ _))
  | many site initial round next ihround ih =>
    exact (ihround _ r).trans ((Recorder.extends_decide ..).trans (ih _ _))
  | atLeastOne site initial round next ihround ih =>
    exact (ihround _ r).trans ((Recorder.extends_decide ..).trans (ih _ _))
  | choose site count alternatives blank next ihalt ih =>
    exact (Recorder.extends_collect (fun i r => ihalt i r) _ r).trans
      ((Recorder.extends_decide ..).trans (ih _ _))
  | action event next ih => exact ih r
  | lookahead number next ih => exact ih _ r
  | recording next ih => exact ih _ r
  | progress next ih => exact ih _ r

/-! ## The outline of a body is what is recorded of it -/

/-- Nothing was objected to, and all keys so far are known. -/
structure Recorder.Clean (known : DecisionKey → Prop) (r : Recorder) : Prop where
  issues : r.issues = []
  keys : ∀ d ∈ r.decisions, known d.key

namespace Recorder

variable {known : DecisionKey → Prop} {r r' : Recorder}

theorem Extends.clean (h : r.Extends r') (hc : r'.Clean known) : r.Clean known :=
  ⟨h.issues_eq_nil hc.issues, fun d hd => hc.keys d (h.mem_decisions hd)⟩

theorem Clean.key_of_decide {rule : String} {key : DecisionKey} {kind : DecisionKind}
    {alternatives : List (List Production)}
    (h : (r.decide rule key kind alternatives).2.Clean known) : known key := by
  obtain ⟨d, hd, rfl⟩ := exists_mem_decide r rule key kind alternatives
  exact h.keys d hd

theorem Clean.of_decide {rule : String} {key : DecisionKey} {kind : DecisionKind}
    {alternatives : List (List Production)}
    (h : (r.decide rule key kind alternatives).2.Clean known) : r.Clean known :=
  (extends_decide r rule key kind alternatives).clean h

end Recorder

/-- An unresolved name leaves an issue. -/
theorem Recorder.not_clean_report {known : DecisionKey → Prop} (r : Recorder) (issue : Issue) :
    ¬(r.report issue).Clean known := by
  intro h
  have hi := h.issues
  unfold report at hi
  split at hi
  · next hc => rw [hi] at hc; simp at hc
  · simp at hi

theorem Body.recorded_record {known : DecisionKey → Prop} {rule : RecordedRule} {α : Type}
    {b : Body τ α} {calls : List Call} (hb : b.Makes calls) {r : Recorder}
    (hc : (b.record rule r).2.Clean known) :
    Recorded rule.find rule.id known calls (b.record rule r).1 := by
  induction b generalizing calls r with
  | done a =>
    obtain rfl := hb
    exact .nil
  | fail => exact hb.elim
  | consume kind next ih =>
    obtain ⟨-, -, rest, rfl, hnext⟩ := hb
    exact .consume (ih _ (hnext _) hc)
  | subrule name next ih =>
    obtain ⟨-, rest, rfl, hnext⟩ := hb
    rw [record] at hc ⊢
    cases hfind : rule.find name with
    | none =>
      rw [hfind] at hc
      exact ((r.not_clean_report _) ((extends_record rule _ _).clean hc)).elim
    | some id =>
      rw [hfind] at hc
      exact .subrule hfind (ih _ (hnext _) hc)
  | option site body next ihbody ih =>
    obtain ⟨-, inner, rest, rfl, hbody, hnext⟩ := hb
    have hdecide := (extends_record rule (next _) _).clean hc
    exact .option hdecide.key_of_decide (ihbody hbody hdecide.of_decide) (ih _ (hnext _) hc)
  | many site initial round next ihround ih =>
    obtain ⟨-, inner, rest, rfl, hround, hnext⟩ := hb
    have hdecide := (extends_record rule (next _) _).clean hc
    exact .many hdecide.key_of_decide (ihround _ (hround _) hdecide.of_decide) (ih _ (hnext _) hc)
  | atLeastOne site initial round next ihround ih =>
    obtain ⟨-, inner, rest, rfl, hround, hnext⟩ := hb
    have hdecide := (extends_record rule (next _) _).clean hc
    exact .atLeastOne hdecide.key_of_decide (ihround _ (hround _) hdecide.of_decide)
      (ih _ (hnext _) hc)
  | choose site count alternatives blank next ihalt ih =>
    obtain ⟨-, inner, rest, rfl, hlen, halt, hnext⟩ := hb
    have hdecide := (extends_record rule (next _) _).clean hc
    refine .choose hdecide.key_of_decide ?_ ?_ (ih _ (hnext _) hc)
    · rw [Recorder.length_collect, List.length_finRange, hlen]
    · intro i branch qs hbranch hqs
      have hi : i < count := hlen ▸ (List.getElem?_eq_some_iff.mp hbranch).1
      have hfin : (List.finRange count)[i]? = some ⟨i, hi⟩ := by
        rw [List.getElem?_eq_getElem (by rwa [List.length_finRange]), List.getElem_finRange]
        rfl
      obtain ⟨r', hext, hget⟩ := Recorder.getElem?_collect
        (fun i r => extends_record rule (alternatives i) r) hfin r
      obtain rfl := Option.some.inj (hqs.symm.trans hget)
      exact ihalt ⟨i, hi⟩ (halt ⟨i, hi⟩ branch hbranch) (hext.clean hdecide.of_decide)
  | action event next ih => exact ih hb hc
  | lookahead number next ih => exact hb.elim
  | recording next ih => exact hb.elim
  | progress next ih => exact hb.elim

/-! ## The outlines of all rules -/

theorem extends_recordRule (rules : List (RuleDef τ)) (entry : String × RuleId) (r : Recorder) :
    r.Extends (recordRule rules entry r).2 := by
  unfold recordRule
  split
  · exact Body.extends_record ..
  · exact .refl r

/-- The grammar has a sequence for each rule. -/
theorem size_recordRules (rules : List (RuleDef τ)) :
    (recordRules rules).1.size = rules.length := by
  show (Recorder.collect (recordRule rules) _ _).1.length = _
  rw [Recorder.length_collect, List.length_zipIdx, List.length_map]

/-- The sequence of each rule is recorded of its body, at some time before the end. -/
theorem exists_record_recordRules {rules : List (RuleDef τ)} {r : RuleId} {rule : RuleDef τ}
    (hrule : rules[r]? = some rule) :
    ∃ before : Recorder,
      (rule.body.record ⟨r, rule.name, ruleId? rules⟩ before).2.Extends
        ⟨(recordRules rules).1.decisions, (recordRules rules).2⟩ ∧
      (recordRules rules).1.rules[r]? =
        some (rule.body.record ⟨r, rule.name, ruleId? rules⟩ before).1 := by
  have hentry : ((rules.map (·.name)).zipIdx)[r]? = some (rule.name, r) := by
    simp [List.getElem?_zipIdx, hrule]
  obtain ⟨before, hextends, hget⟩ :=
    Recorder.getElem?_collect (extends_recordRule rules) hentry .empty
  have hone : recordRule rules (rule.name, r) before
      = rule.body.record ⟨r, rule.name, ruleId? rules⟩ before := by
    simp only [recordRule, hrule]
  rw [hone] at hextends hget
  exact ⟨before, hextends, hget⟩

/-- What holds of nothing and of all that is recorded of bodies holds of the sequences of rules. -/
theorem rule_recordRules {rules : List (RuleDef τ)} {P : List Production → Prop} (nil : P [])
    (record : ∀ (r : RuleId) (rule : RuleDef τ) (before : Recorder), rules[r]? = some rule →
      (rule.body.record ⟨r, rule.name, ruleId? rules⟩ before).2.Extends
        ⟨(recordRules rules).1.decisions, (recordRules rules).2⟩ →
      P (rule.body.record ⟨r, rule.name, ruleId? rules⟩ before).1)
    (r : RuleId) : P ((recordRules rules).1.rule r) := by
  unfold Grammar.rule
  cases hrule : rules[r]? with
  | none =>
    have hsize : (recordRules rules).1.size ≤ r := by
      rw [size_recordRules]
      exact List.getElem?_eq_none_iff.mp hrule
    rw [List.getElem?_eq_none hsize]
    exact nil
  | some rule =>
    obtain ⟨before, hextends, hget⟩ := exists_record_recordRules hrule
    rw [hget]
    exact record r rule before hrule hextends

/-- Whether the grammar has a decision with this key. -/
def Grammar.Decides (g : Grammar) (key : DecisionKey) : Prop := ∃ d ∈ g.decisions, d.key = key

/-- **The outline of a rule is recorded.** Where recording finds no issue, the sequence of a rule
with a static body is its outline, and all decisions in it are decisions of the grammar. -/
theorem recorded_recordRules {rules : List (RuleDef τ)} (hissues : (recordRules rules).2 = [])
    {r : RuleId} {rule : RuleDef τ} (hrule : rules[r]? = some rule) {calls : List Call}
    (hcalls : rule.body.Makes calls) :
    Recorded (ruleId? rules) r (recordRules rules).1.Decides calls
      ((recordRules rules).1.rule r) := by
  obtain ⟨before, hextends, hget⟩ := exists_record_recordRules hrule
  have hclean : Recorder.Clean (recordRules rules).1.Decides
      ⟨(recordRules rules).1.decisions, (recordRules rules).2⟩ :=
    ⟨hissues, fun d hd => ⟨d, hd, rfl⟩⟩
  rw [Grammar.rule, hget, Option.getD_some]
  exact Body.recorded_record hcalls (hextends.clean hclean)

end Palette
