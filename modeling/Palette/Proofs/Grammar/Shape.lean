import Palette.Proofs.Grammar.Outline

/-!
# The shape of recorded grammars

Whatever the bodies of the rules do while they are recorded, every rule that the recorded
productions invoke is one of the grammar, since only names that are found become nonterminals; and
unless an issue was recorded, every alternation has an alternative. This holds of the sequences of
the rules as well as of the decisions that were listed on the way, and of everything inside of
them.

Main statements: `Body.sound_record` for one rule and `Grammar.sound_recordRules` for all of them.
-/

namespace Palette

/-! ## Productions with all that is inside of them -/

/-- The predicate holds of the production and of all productions inside of it. -/
inductive Production.All (P : Production → Prop) : Production → Prop where
  | terminal {kind} (here : P (.terminal kind)) : All P (.terminal kind)
  | nonterminal {r} (here : P (.nonterminal r)) : All P (.nonterminal r)
  | decision {number key kind alternatives} (here : P (.decision number key kind alternatives))
      (inside : ∀ sequence ∈ alternatives, ∀ p ∈ sequence, All P p) :
    All P (.decision number key kind alternatives)

namespace Production.All

variable {P Q : Production → Prop} {p : Production}

theorem imp (hp : p.All P) (h : ∀ q, P q → Q q) : p.All Q := by
  induction hp with
  | terminal here => exact .terminal (h _ here)
  | nonterminal here => exact .nonterminal (h _ here)
  | decision here _ ih => exact .decision (h _ here) ih

theorem here (hp : p.All P) : P p := by
  cases hp <;> assumption

variable {number : Nat} {key : DecisionKey} {kind : DecisionKind}
  {alternatives : List (List Production)}

theorem inside (hp : (Production.decision number key kind alternatives).All P) :
    ∀ sequence ∈ alternatives, ∀ p ∈ sequence, p.All P := by
  cases hp with
  | decision _ inside => exact inside

theorem body (hp : (Production.decision number key kind alternatives).All P) :
    ∀ p ∈ bodyOf alternatives, p.All P := by
  cases alternatives with
  | nil => exact nofun
  | cons body _ => exact hp.inside body List.mem_cons_self

end Production.All

/--
The production invokes a rule below `n` and is no alternation without alternatives; the latter is
promised only where `clean` holds.
-/
def Production.Sound (n : Nat) (clean : Prop) : Production → Prop
  | .terminal _ => True
  | .nonterminal r => r < n
  | .decision _ _ kind alternatives => clean → kind = .alternation → alternatives ≠ []

/-- Everything in the sequence is sound. -/
def SoundSequence (n : Nat) (clean : Prop) (sequence : List Production) : Prop :=
  ∀ p ∈ sequence, p.All (Production.Sound n clean)

namespace SoundSequence

variable {n : Nat} {clean : Prop} {p : Production} {ps : List Production}

theorem nil : SoundSequence n clean [] := nofun

theorem cons (h : p.All (Production.Sound n clean)) (h' : SoundSequence n clean ps) :
    SoundSequence n clean (p :: ps) :=
  List.forall_mem_cons.mpr ⟨h, h'⟩

theorem singleton (h : p.All (Production.Sound n clean)) : SoundSequence n clean [p] :=
  .cons h .nil

theorem head (h : SoundSequence n clean (p :: ps)) : p.All (Production.Sound n clean) :=
  h p List.mem_cons_self

theorem tail (h : SoundSequence n clean (p :: ps)) : SoundSequence n clean ps :=
  (List.forall_mem_cons.mp h).2

theorem lt {r : RuleId} (h : SoundSequence n clean (.nonterminal r :: ps)) : r < n := by
  cases h.head with
  | nonterminal here => exact here

variable {number : Nat} {key : DecisionKey} {kind : DecisionKind}
  {alternatives : List (List Production)}

theorem inside (h : SoundSequence n clean (.decision number key kind alternatives :: ps)) :
    ∀ sequence ∈ alternatives, SoundSequence n clean sequence := by
  cases h.head with
  | decision here inside => exact inside

/-- The body of a decision with a single one is one of its alternatives, or empty. -/
theorem body (h : SoundSequence n clean (.decision number key kind alternatives :: ps)) :
    SoundSequence n clean (bodyOf alternatives) := by
  cases alternatives with
  | nil => exact .nil
  | cons body _ => exact h.inside body List.mem_cons_self

/-- A decision can be taken for the repetition that goes on behind its first round. -/
theorem repeated (h : SoundSequence n clean (.decision number key kind alternatives :: ps)) :
    SoundSequence n clean (.decision number key .many alternatives :: ps) :=
  .cons (.decision nofun h.inside) h.tail

end SoundSequence

/-! ## Recording one rule -/

namespace Recorder

/-- All decisions so far are sound. -/
def Sound (n : Nat) (clean : Prop) (r : Recorder) : Prop :=
  ∀ d ∈ r.decisions, d.production.All (Production.Sound n clean)

variable {n : Nat} {clean : Prop} {r : Recorder}

theorem Sound.report (h : r.Sound n clean) (issue : Issue) : (r.report issue).Sound n clean := by
  unfold Sound
  rwa [decisions_report]

/-- An alternation without alternatives leaves an issue. -/
theorem ne_nil_of_issues_decide {rule : String} {key : DecisionKey} {kind : DecisionKind}
    {alternatives : List (List Production)}
    (h : (r.decide rule key kind alternatives).2.issues = []) (hkind : kind = .alternation) :
    alternatives ≠ [] := by
  rintro rfl
  rw [hkind] at h
  simp [decide] at h

/-- A decision about sound sequences is sound. -/
theorem Sound.decide (h : r.Sound n clean) {rule : String} {key : DecisionKey}
    {kind : DecisionKind} {alternatives : List (List Production)}
    (hinside : ∀ sequence ∈ alternatives, SoundSequence n clean sequence)
    (hclean : clean → (r.decide rule key kind alternatives).2.issues = []) :
    (r.decide rule key kind alternatives).1.All (Production.Sound n clean) ∧
      (r.decide rule key kind alternatives).2.Sound n clean := by
  have hnew : Production.All (Production.Sound n clean)
      (.decision r.decisions.length key kind alternatives) :=
    .decision (fun hc => ne_nil_of_issues_decide (hclean hc)) hinside
  refine ⟨hnew, fun d hd => ?_⟩
  rw [decisions_decide, List.mem_append, List.mem_singleton] at hd
  rcases hd with hd | rfl
  · exact h d hd
  · exact hnew

/-- Sound sequences in a row are sound. -/
theorem Sound.collect {ι : Type} {record : ι → Recorder → List Production × Recorder}
    (hextends : ∀ (i : ι) (r : Recorder), r.Extends (record i r).2)
    (hrecord : ∀ (i : ι) (r : Recorder), r.Sound n clean →
      (clean → (record i r).2.issues = []) →
        SoundSequence n clean (record i r).1 ∧ (record i r).2.Sound n clean)
    (l : List ι) (h : r.Sound n clean) (hclean : clean → (collect record l r).2.issues = []) :
    (∀ sequence ∈ (collect record l r).1, SoundSequence n clean sequence) ∧
      (collect record l r).2.Sound n clean := by
  induction l generalizing r with
  | nil => exact ⟨nofun, h⟩
  | cons i rest ih =>
    have hfirst := hrecord i r h fun hc => (extends_collect hextends rest _).issues_eq_nil
      (hclean hc)
    have hrest := ih hfirst.2 hclean
    exact ⟨List.forall_mem_cons.mpr ⟨hfirst.1, hrest.1⟩, hrest.2⟩

end Recorder

variable {τ : Type} [Inhabited τ]

/-- **What is recorded of a body is sound.** -/
theorem Body.sound_record {n : Nat} {clean : Prop} {rule : RecordedRule}
    (hfind : ∀ name r, rule.find name = some r → r < n) {α : Type} (b : Body τ α) {r : Recorder}
    (hr : r.Sound n clean) (hclean : clean → (b.record rule r).2.issues = []) :
    SoundSequence n clean (b.record rule r).1 ∧ (b.record rule r).2.Sound n clean := by
  -- What was recorded last has no issue, so nothing recorded before it has one.
  induction b generalizing r with
  | done a => exact ⟨.nil, hr⟩
  | fail => exact ⟨.nil, hr⟩
  | consume kind next ih =>
    have hrest := ih _ hr hclean
    exact ⟨.cons (.terminal trivial) hrest.1, hrest.2⟩
  | subrule name next ih =>
    rw [record] at hclean ⊢
    cases hname : rule.find name with
    | none =>
      rw [hname] at hclean
      exact ih _ (hr.report _) hclean
    | some id =>
      rw [hname] at hclean
      have hrest := ih _ hr hclean
      exact ⟨.cons (.nonterminal (hfind name id hname)) hrest.1, hrest.2⟩
  | option site body next ihbody ih =>
    have hdecide := fun hc => (extends_record rule (next _) _).issues_eq_nil (hclean hc)
    have hbody := ihbody hr fun hc =>
      (Recorder.extends_decide ..).issues_eq_nil (hdecide hc)
    have hdecision := hbody.2.decide (List.forall_mem_singleton.mpr hbody.1) hdecide
    have hrest := ih _ hdecision.2 hclean
    exact ⟨.cons hdecision.1 hrest.1, hrest.2⟩
  | many site initial round next ihround ih =>
    have hdecide := fun hc => (extends_record rule (next _) _).issues_eq_nil (hclean hc)
    have hround := ihround _ hr fun hc =>
      (Recorder.extends_decide ..).issues_eq_nil (hdecide hc)
    have hdecision := hround.2.decide (List.forall_mem_singleton.mpr hround.1) hdecide
    have hrest := ih _ hdecision.2 hclean
    exact ⟨.cons hdecision.1 hrest.1, hrest.2⟩
  | atLeastOne site initial round next ihround ih =>
    have hdecide := fun hc => (extends_record rule (next _) _).issues_eq_nil (hclean hc)
    have hround := ihround _ hr fun hc =>
      (Recorder.extends_decide ..).issues_eq_nil (hdecide hc)
    have hdecision := hround.2.decide (List.forall_mem_singleton.mpr hround.1) hdecide
    have hrest := ih _ hdecision.2 hclean
    exact ⟨.cons hdecision.1 hrest.1, hrest.2⟩
  | choose site count alternatives blank next ihalt ih =>
    have hdecide := fun hc => (extends_record rule (next _) _).issues_eq_nil (hclean hc)
    have hall := hr.collect (fun i r => extends_record rule (alternatives i) r)
      (fun i r h hc => ihalt i h hc) (List.finRange count) fun hc =>
        (Recorder.extends_decide ..).issues_eq_nil (hdecide hc)
    have hdecision := hall.2.decide hall.1 hdecide
    have hrest := ih _ hdecision.2 hclean
    exact ⟨.cons hdecision.1 hrest.1, hrest.2⟩
  | action event next ih => exact ih hr hclean
  | lookahead number next ih => exact ih _ hr hclean
  | recording next ih => exact ih _ hr hclean
  | progress next ih => exact ih _ hr hclean

/-! ## Recording all rules -/

omit [Inhabited τ] in
/-- An index found by name is one of a rule. -/
theorem lt_length_of_ruleId? {rules : List (RuleDef τ)} {name : String} {r : RuleId}
    (h : ruleId? rules name = some r) : r < rules.length :=
  (List.findIdx?_eq_some_iff_findIdx_eq.mp h).1

theorem sound_recordRule {n : Nat} {clean : Prop} {rules : List (RuleDef τ)}
    (hn : rules.length = n) (entry : String × RuleId) {r : Recorder} (hr : r.Sound n clean)
    (hclean : clean → (recordRule rules entry r).2.issues = []) :
    SoundSequence n clean (recordRule rules entry r).1 ∧
      (recordRule rules entry r).2.Sound n clean := by
  unfold recordRule at hclean ⊢
  split at hclean
  · exact Body.sound_record (fun _ _ hfind => hn ▸ lt_length_of_ruleId? hfind) _ hr hclean
  · exact ⟨.nil, hr⟩

namespace Grammar

/-- The sequences of the grammar and its decisions are sound. -/
structure Sound (g : Grammar) (clean : Prop) : Prop where
  rules : ∀ sequence ∈ g.rules, SoundSequence g.size clean sequence
  decisions : ∀ d ∈ g.decisions, d.production.All (Production.Sound g.size clean)

/-- **Recorded grammars are sound**, and clean where recording finds no issue. -/
theorem sound_recordRules (rules : List (RuleDef τ)) :
    (recordRules rules).1.Sound ((recordRules rules).2 = []) := by
  have hempty : Recorder.empty.Sound rules.length ((recordRules rules).2 = []) := nofun
  have hall := hempty.collect (extends_recordRule rules)
    (fun entry _ hr hclean => sound_recordRule rfl entry hr hclean)
    ((rules.map (·.name)).zipIdx) id
  rw [← size_recordRules rules] at hall
  exact ⟨hall.1, hall.2⟩

variable {g : Grammar} {clean : Prop}

theorem Sound.rule (h : g.Sound clean) (r : RuleId) : SoundSequence g.size clean (g.rule r) := by
  unfold Grammar.rule
  cases hr : g.rules[r]? with
  | none => exact .nil
  | some sequence => exact h.rules sequence (List.mem_of_getElem? hr)

end Grammar

end Palette
