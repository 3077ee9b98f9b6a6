import Mathlib.Data.List.Nodup
import Palette.Proofs.Grammar.Frames
import Palette.Proofs.Grammar.Shape

/-!
# Decisions are numbered as they occur

A decision is written down where it occurs, in a rule or inside of another decision, and listed in
the grammar. It is listed when its recording ends, after all decisions inside of it, and its number
is its place in the list. So the list holds all decisions that occur anywhere in the rules, each of
them once, in the order in which they are read with inner ones first (`Body.decisions_record`).

Most of what holds of the list follows by going along a recording: `recordRules_induction` says
what a decision can rely on when it is listed. In particular all numbers inside of it are smaller
than its own, so the numbers alone could stand for the decisions, and following them ends
(`Grammar.resolve_reference`).

Main statements: `Body.decisions_record`, `Grammar.resolve_reference` and `wellFormed_recordRules`.
-/

namespace Palette

/-! ## Decisions that occur -/

mutual

/-- The decisions that occur in a production, those inside of a decision in front of it. -/
def Production.decisions : Production → List Decision
  | .terminal _ => []
  | .nonterminal _ => []
  | .decision number key kind alternatives =>
    alternativesDecisions alternatives ++ [⟨number, key, kind, alternatives⟩]

/-- The decisions that occur in a sequence. -/
def sequenceDecisions : List Production → List Decision
  | [] => []
  | p :: rest => p.decisions ++ sequenceDecisions rest

/-- The decisions that occur in some alternative. -/
def alternativesDecisions : List (List Production) → List Decision
  | [] => []
  | sequence :: rest => sequenceDecisions sequence ++ alternativesDecisions rest

end

theorem sequenceDecisions_eq (sequence : List Production) :
    sequenceDecisions sequence = sequence.flatMap Production.decisions := by
  induction sequence with
  | nil => simp [sequenceDecisions]
  | cons p rest ih => rw [sequenceDecisions, ih, List.flatMap_cons]

theorem alternativesDecisions_eq (alternatives : List (List Production)) :
    alternativesDecisions alternatives = alternatives.flatMap sequenceDecisions := by
  induction alternatives with
  | nil => simp [alternativesDecisions]
  | cons sequence rest ih => rw [alternativesDecisions, ih, List.flatMap_cons]

theorem alternativesDecisions_singleton (sequence : List Production) :
    alternativesDecisions [sequence] = sequenceDecisions sequence := by
  rw [alternativesDecisions, alternativesDecisions, List.append_nil]

theorem mem_sequenceDecisions {d : Decision} {sequence : List Production} :
    d ∈ sequenceDecisions sequence ↔ ∃ p ∈ sequence, d ∈ p.decisions := by
  rw [sequenceDecisions_eq, List.mem_flatMap]

theorem mem_alternativesDecisions {d : Decision} {alternatives : List (List Production)} :
    d ∈ alternativesDecisions alternatives ↔
      ∃ sequence ∈ alternatives, ∃ p ∈ sequence, d ∈ p.decisions := by
  simp only [alternativesDecisions_eq, List.mem_flatMap, mem_sequenceDecisions]

/-- What holds of everything in a production holds of everything in the decisions of it. -/
theorem Production.All.occurring {P : Production → Prop} {p : Production} (h : p.All P) :
    ∀ d ∈ p.decisions, d.production.All P := by
  induction h with
  | terminal here => exact nofun
  | nonterminal here => exact nofun
  | decision here inside ih =>
    refine List.forall_mem_append.mpr ⟨fun d hd => ?_, ?_⟩
    · obtain ⟨sequence, hsequence, p, hp, hd⟩ := mem_alternativesDecisions.mp hd
      exact ih sequence hsequence p hp d hd
    · exact List.forall_mem_singleton.mpr (.decision here inside)

/-! ## Recording lists what occurs -/

namespace Recorder

variable {r r' : Recorder}

/-- A decision about sequences whose decisions were listed last is listed behind them, and what
follows it behind it. -/
theorem decisions_decide_append {inner : Recorder} {rule : String} {key : DecisionKey}
    {kind : DecisionKind} {alternatives : List (List Production)} {rest : List Production}
    (hinner : inner.decisions = r.decisions ++ alternativesDecisions alternatives)
    (hrest : r'.decisions =
      (inner.decide rule key kind alternatives).2.decisions ++ sequenceDecisions rest) :
    r'.decisions = r.decisions ++
      sequenceDecisions ((inner.decide rule key kind alternatives).1 :: rest) := by
  rw [hrest, decisions_decide, sequenceDecisions]
  simp only [decide, Decision.production, Production.decisions, List.append_assoc]
  rw [hinner, List.append_assoc]

/-- Of sequences in a row, all decisions are listed. -/
theorem decisions_collect {ι : Type} {record : ι → Recorder → List Production × Recorder}
    (h : ∀ (i : ι) (r : Recorder),
      (record i r).2.decisions = r.decisions ++ sequenceDecisions (record i r).1)
    (l : List ι) (r : Recorder) : (collect record l r).2.decisions =
      r.decisions ++ (collect record l r).1.flatMap sequenceDecisions := by
  induction l generalizing r with
  | nil => simp [collect]
  | cons i rest ih => simp [collect, ih, h]

/-- What every recording keeps is kept by recordings in a row. -/
theorem collect_induction {ι β : Type} {record : ι → Recorder → β × Recorder}
    {P : Recorder → Prop} (hrecord : ∀ (i : ι) (r : Recorder), P r → P (record i r).2)
    (l : List ι) (h : P r) : P (collect record l r).2 := by
  induction l generalizing r with
  | nil => exact h
  | cons i rest ih => exact ih (hrecord i r h)

end Recorder

variable {τ : Type} [Inhabited τ]

/-- **Recording lists the decisions that occur in what it writes down**, in that order. -/
theorem Body.decisions_record (rule : RecordedRule) {α : Type} (b : Body τ α) (r : Recorder) :
    (b.record rule r).2.decisions = r.decisions ++ sequenceDecisions (b.record rule r).1 := by
  induction b generalizing r with
  | done a => exact (List.append_nil _).symm
  | fail => exact (List.append_nil _).symm
  | consume kind next ih => exact ih _ r
  | subrule name next ih =>
    rw [record]
    cases rule.find name with
    | none => exact (ih _ _).trans (by rw [Recorder.decisions_report])
    | some id => exact ih _ r
  | option site body next ihbody ih =>
    exact Recorder.decisions_decide_append
      ((ihbody r).trans (by rw [alternativesDecisions_singleton])) (ih _ _)
  | many site initial round next ihround ih =>
    exact Recorder.decisions_decide_append
      ((ihround _ r).trans (by rw [alternativesDecisions_singleton])) (ih _ _)
  | atLeastOne site initial round next ihround ih =>
    exact Recorder.decisions_decide_append
      ((ihround _ r).trans (by rw [alternativesDecisions_singleton])) (ih _ _)
  | choose site count alternatives blank next ihalt ih =>
    refine Recorder.decisions_decide_append ?_ (ih _ _)
    rw [alternativesDecisions_eq]
    exact Recorder.decisions_collect ihalt _ r
  | action event next ih => exact ih r
  | lookahead number next ih => exact ih _ r
  | recording next ih => exact ih _ r
  | progress next ih => exact ih _ r

/-! ## Along a recording -/

/-- Whatever is kept when a name is not found and when a decision is listed is kept by a recording.
When a decision is listed, all decisions inside of it are listed already. -/
theorem Body.record_induction {rule : RecordedRule} {P : Recorder → Prop}
    (unresolved : ∀ r name, P r → P (r.report (.unresolvedRule rule.name name)))
    (decide : ∀ (r : Recorder) (site : Site) (kind : DecisionKind)
      (alternatives : List (List Production)), P r →
      (∀ d ∈ alternativesDecisions alternatives, d ∈ r.decisions) →
      P (r.decide rule.name ⟨rule.id, site⟩ kind alternatives).2)
    {α : Type} (b : Body τ α) {r : Recorder} (h : P r) : P (b.record rule r).2 := by
  have hbody {β : Type} (b : Body τ β) (r : Recorder) :
      ∀ d ∈ alternativesDecisions [(b.record rule r).1], d ∈ (b.record rule r).2.decisions := by
    rw [alternativesDecisions_singleton, decisions_record]
    exact fun d hd => List.mem_append_right _ hd
  induction b generalizing r with
  | done a => exact h
  | fail => exact h
  | consume kind next ih => exact ih _ h
  | subrule name next ih =>
    rw [record]
    cases rule.find name with
    | none => exact ih _ (unresolved r name h)
    | some id => exact ih _ h
  | option site body next ihbody ih =>
    exact ih _ (decide _ site .option _ (ihbody h) (hbody body r))
  | many site initial round next ihround ih =>
    exact ih _ (decide _ site .many _ (ihround _ h) (hbody (round initial) r))
  | atLeastOne site initial round next ihround ih =>
    exact ih _ (decide _ site .atLeastOne _ (ihround _ h) (hbody (round initial) r))
  | choose site count alternatives blank next ihalt ih =>
    refine ih _ (decide _ site .alternation _ ?_ ?_)
    · exact Recorder.collect_induction (fun i _ hr => ihalt i hr) _ h
    · rw [alternativesDecisions_eq,
        Recorder.decisions_collect (fun i r => decisions_record rule (alternatives i) r)]
      exact fun d hd => List.mem_append_right _ hd
  | action event next ih => exact ih h
  | lookahead number next ih => exact ih _ h
  | recording next ih => exact ih _ h
  | progress next ih => exact ih _ h

/-- What holds before anything is recorded, and is kept when a name is not found and when a decision
of a rule of the grammar is listed, holds of all that is recorded. -/
theorem recordRules_induction {rules : List (RuleDef τ)} {P : Recorder → Prop} (empty : P .empty)
    (unresolved : ∀ r rule name, P r → P (r.report (.unresolvedRule rule name)))
    (decide : ∀ (r : Recorder) (rule : String) (key : DecisionKey) (kind : DecisionKind)
      (alternatives : List (List Production)), key.rule < rules.length → P r →
      (∀ d ∈ alternativesDecisions alternatives, d ∈ r.decisions) →
      P (r.decide rule key kind alternatives).2) :
    P ⟨(recordRules rules).1.decisions, (recordRules rules).2⟩ := by
  refine Recorder.collect_induction (fun entry r hr => ?_) _ empty
  unfold recordRule
  split
  · next rule hrule =>
    exact Body.record_induction (fun r name => unresolved r _ name)
      (fun r site kind alternatives => decide r _ ⟨entry.2, site⟩ kind alternatives
        (List.getElem?_eq_some_iff.mp hrule).1)
      rule.body hr
  · exact hr

/-- All decisions of a grammar occur in its rules, in the order of the list. -/
theorem flatMap_decisions_recordRules (rules : List (RuleDef τ)) :
    (recordRules rules).1.rules.flatMap sequenceDecisions = (recordRules rules).1.decisions := by
  have hone (entry : String × RuleId) (r : Recorder) : (recordRule rules entry r).2.decisions =
      r.decisions ++ sequenceDecisions (recordRule rules entry r).1 := by
    unfold recordRule
    split
    · exact Body.decisions_record _ _ r
    · exact (List.append_nil _).symm
  exact (Recorder.decisions_collect hone ((rules.map (·.name)).zipIdx) .empty).symm

/-! ## Numbers -/

/-- Each decision has its place in the list for a number, those inside of it have smaller ones, and
its key is one of a rule below `n`. -/
structure Numbered (n : Nat) (ds : List Decision) : Prop where
  number : ∀ (i : Nat) (d : Decision), ds[i]? = some d → d.number = i
  nested : ∀ d ∈ ds, ∀ e ∈ alternativesDecisions d.alternatives, e.number < d.number
  rule : ∀ d ∈ ds, d.key.rule < n

namespace Numbered

variable {n : Nat} {ds : List Decision}

/-- A decision is found by its number. -/
theorem getElem? (h : Numbered n ds) {d : Decision} (hd : d ∈ ds) : ds[d.number]? = some d := by
  obtain ⟨i, hi⟩ := List.mem_iff_getElem?.mp hd
  rwa [h.number i d hi]

theorem lt_length (h : Numbered n ds) {d : Decision} (hd : d ∈ ds) : d.number < ds.length :=
  (List.getElem?_eq_some_iff.mp (h.getElem? hd)).1

/-- The numbers count the list. -/
theorem map_number (h : Numbered n ds) : ds.map (·.number) = List.range ds.length := by
  refine List.ext_getElem? fun i => ?_
  rw [List.getElem?_map]
  cases hi : ds[i]? with
  | none => rw [List.getElem?_eq_none (by simpa using hi)]; rfl
  | some d =>
    rw [List.getElem?_range (List.getElem?_eq_some_iff.mp hi).1, Option.map_some, h.number i d hi]

/-- A decision gets the next number when it is listed. -/
theorem append (h : Numbered n ds) {key : DecisionKey} {kind : DecisionKind}
    {alternatives : List (List Production)} (hkey : key.rule < n)
    (hinside : ∀ d ∈ alternativesDecisions alternatives, d ∈ ds) :
    Numbered n (ds ++ [⟨ds.length, key, kind, alternatives⟩]) := by
  refine ⟨fun i d hi => ?_, ?_, ?_⟩
  · rw [List.getElem?_append] at hi
    split at hi
    · exact h.number i d hi
    · obtain ⟨hlt, rfl⟩ := List.getElem?_eq_some_iff.mp hi
      rw [List.getElem_singleton]
      rw [List.length_singleton] at hlt
      show ds.length = i
      omega
  · exact List.forall_mem_append.mpr
      ⟨h.nested, List.forall_mem_singleton.mpr fun e he => h.lt_length (hinside e he)⟩
  · exact List.forall_mem_append.mpr ⟨h.rule, List.forall_mem_singleton.mpr hkey⟩

end Numbered

theorem numbered_recordRules (rules : List (RuleDef τ)) :
    Numbered rules.length (recordRules rules).1.decisions := by
  refine recordRules_induction (P := fun r => Numbered rules.length r.decisions)
    ⟨nofun, nofun, nofun⟩ (fun r rule name hr => ?_)
    (fun r rule key kind alternatives hkey hr hinside => ?_)
  · rwa [Recorder.decisions_report]
  · rw [Recorder.decisions_decide]
    exact hr.append hkey hinside

/-! ## Keys -/

namespace Recorder

variable {r : Recorder}

/-- Unless a decision point was found to be shared, no two decisions have the same key. -/
def Distinct (r : Recorder) : Prop :=
  (∀ rule site, Issue.sharedDecisionPoint rule site ∉ r.issues) → (r.decisions.map (·.key)).Nodup

theorem mem_issues_report (r : Recorder) (issue : Issue) : issue ∈ (r.report issue).issues := by
  unfold report
  split
  · next h => exact List.contains_iff_mem.mp h
  · exact List.mem_append_right _ List.mem_cons_self

/-- A key that is known already leaves an issue. -/
theorem mem_issues_decide {key : DecisionKey} (h : r.knows key) (rule : String)
    (kind : DecisionKind) (alternatives : List (List Production)) :
    .sharedDecisionPoint rule key.site ∈ (r.decide rule key kind alternatives).2.issues := by
  have hreport := mem_issues_report r (.sharedDecisionPoint rule key.site)
  simp only [decide, h, if_true]
  split
  · exact List.mem_append_left _ hreport
  · exact hreport

theorem Distinct.report (h : r.Distinct) (issue : Issue) : (r.report issue).Distinct := by
  intro hissues
  rw [decisions_report]
  exact h fun rule site hmem =>
    hissues rule site ((extends_report r issue).issues.subset hmem)

theorem Distinct.decide (h : r.Distinct) (rule : String) (key : DecisionKey) (kind : DecisionKind)
    (alternatives : List (List Production)) :
    (r.decide rule key kind alternatives).2.Distinct := by
  intro hissues
  have hnodup := h fun rule' site hmem => hissues rule' site
    ((extends_decide r rule key kind alternatives).issues.subset hmem)
  have hnew : key ∉ r.decisions.map (·.key) := by
    intro hmem
    refine hissues rule key.site (mem_issues_decide ?_ rule kind alternatives)
    obtain ⟨d, hd, hkey⟩ := List.mem_map.mp hmem
    exact List.any_eq_true.mpr ⟨d, hd, beq_iff_eq.mpr hkey⟩
  rw [decisions_decide, List.map_append, List.map_singleton]
  exact hnodup.append (List.nodup_singleton key) (List.disjoint_singleton.mpr hnew)

end Recorder

/-- **The decisions of a grammar have different keys** where recording finds no shared decision
point. -/
theorem distinct_recordRules (rules : List (RuleDef τ)) :
    (⟨(recordRules rules).1.decisions, (recordRules rules).2⟩ : Recorder).Distinct :=
  recordRules_induction (fun _ => List.nodup_nil) (fun _ _ _ hr => hr.report _)
    (fun _ rule key kind alternatives _ hr _ => hr.decide rule key kind alternatives)

/-! ## Decisions by reference -/

/-- A part of a rule that has the number of a decision in the place of the decision. -/
inductive Reference where
  | terminal (kind : TokenKind)
  | nonterminal (rule : RuleId)
  | decision (number : Nat)

/-- The production with the number of the decision in its place. -/
def Production.reference : Production → Reference
  | .terminal kind => .terminal kind
  | .nonterminal r => .nonterminal r
  | .decision number _ _ _ => .decision number

/-- The production invokes no rule, or one below `n`. -/
def Production.Within (n : Nat) : Production → Prop
  | .nonterminal r => r < n
  | _ => True

theorem Production.Sound.within {n : Nat} {clean : Prop} {p : Production} (h : p.Sound n clean) :
    p.Within n := by
  cases p with
  | nonterminal r => exact h
  | terminal kind => trivial
  | decision number key kind alternatives => trivial

/-- What is mapped there can be mapped back. -/
theorem mapM_map_eq_some {α β : Type} {f : α → Option β} {there : β → α} {l : List β}
    (h : ∀ b ∈ l, f (there b) = some b) : (l.map there).mapM f = some l := by
  induction l with
  | nil => rfl
  | cons b l ih =>
    obtain ⟨hb, hl⟩ := List.forall_mem_cons.mp h
    simp [hb, ih hl]

namespace Grammar

/-- Looks decisions up by their numbers, and those inside of them, at most `depth` of them nested.
Nothing is found for a number that is not the place of a decision and for an index that is not one
of a rule. -/
def resolve (g : Grammar) : Nat → Reference → Option Production
  | _, .terminal kind => some (.terminal kind)
  | _, .nonterminal r => if r < g.size then some (.nonterminal r) else none
  | 0, .decision _ => none
  | depth + 1, .decision number => do
    let d ← g.decisions[number]?
    let alternatives ← d.alternatives.mapM fun sequence =>
      (sequence.map Production.reference).mapM (g.resolve depth)
    return .decision number d.key d.kind alternatives

/-- A decision is resolved by resolving what is inside of it. -/
theorem resolve_decision {g : Grammar} {depth : Nat} {d : Decision}
    (hd : g.decisions[d.number]? = some d)
    (hinside : ∀ sequence ∈ d.alternatives, ∀ p ∈ sequence, g.resolve depth p.reference = some p) :
    g.resolve (depth + 1) (.decision d.number) = some d.production := by
  have hall : (d.alternatives.map id).mapM (fun sequence =>
      (sequence.map Production.reference).mapM (g.resolve depth)) = some d.alternatives :=
    mapM_map_eq_some fun sequence hs => mapM_map_eq_some (hinside sequence hs)
  rw [List.map_id] at hall
  simp only [resolve, hd, hall, Option.bind_eq_bind, Option.bind_some]
  rfl

/-- What occurs in a grammar with numbered decisions is found by following references, as deep as
the numbers are large. -/
theorem resolve_reference {g : Grammar} {n depth : Nat} (hnumbered : Numbered n g.decisions)
    {p : Production} (hwithin : p.All (Production.Within g.size))
    (hlisted : ∀ d ∈ p.decisions, d ∈ g.decisions) (hdepth : ∀ d ∈ p.decisions, d.number < depth) :
    g.resolve depth p.reference = some p := by
  induction depth generalizing p with
  | zero =>
    cases p with
    | terminal kind => rw [Production.reference, resolve]
    | nonterminal r => exact if_pos hwithin.here
    | decision number key kind alternatives =>
      exact absurd (hdepth _ (List.mem_append_right _ List.mem_cons_self)) (Nat.not_lt_zero _)
  | succ depth ih =>
    cases p with
    | terminal kind => rw [Production.reference, resolve]
    | nonterminal r => exact if_pos hwithin.here
    | decision number key kind alternatives =>
      have hself := hlisted _ (List.mem_append_right _ List.mem_cons_self)
      refine resolve_decision (hnumbered.getElem? hself) fun sequence hs p hp => ?_
      have hinside : ∀ d ∈ p.decisions, d ∈ alternativesDecisions alternatives :=
        fun d hd => mem_alternativesDecisions.mpr ⟨sequence, hs, p, hp, hd⟩
      refine ih (hwithin.inside sequence hs p hp)
        (fun d hd => hlisted d (List.mem_append_left _ (hinside d hd))) fun d hd => ?_
      -- Numbers become smaller on the way inside.
      have hsmaller : d.number < number := hnumbered.nested _ hself d (hinside d hd)
      have hnumber : number < depth + 1 :=
        hdepth _ (List.mem_append_right _ List.mem_cons_self)
      omega

end Grammar

/-! ## Well-formed grammars -/

/-- The decisions that occur in the rules of a grammar. -/
def Grammar.occurring (g : Grammar) : List Decision := g.rules.flatMap sequenceDecisions

/-- Whatever the grammar refers to is there, and no decision refers to itself. -/
structure Grammar.WellFormed (g : Grammar) : Prop where
  names : g.names.length = g.size
  /-- All rules that are invoked, inside of decisions too, are rules of the grammar. -/
  within : ∀ sequence ∈ g.rules, ∀ p ∈ sequence, p.All (Production.Within g.size)
  /-- The rule of each decision is one of the grammar. -/
  keys : ∀ d ∈ g.decisions, d.key.rule < g.size
  found : ∀ d ∈ g.occurring, g.decisions[d.number]? = some d
  once : ∀ n < g.decisions.length, (g.occurring.map (·.number)).count n = 1
  nested : ∀ d ∈ g.occurring, ∀ e ∈ alternativesDecisions d.alternatives, e.number < d.number
  /-- Following the references from any production ends, and ends with this production. -/
  resolved : ∀ sequence ∈ g.rules, ∀ p ∈ sequence,
    g.resolve g.decisions.length p.reference = some p

/-- A grammar is well formed if the decisions in its rules are listed as they occur. -/
theorem Numbered.wellFormed {g : Grammar} (h : Numbered g.size g.decisions)
    (names : g.names.length = g.size)
    (within : ∀ sequence ∈ g.rules, ∀ p ∈ sequence, p.All (Production.Within g.size))
    (hoccurring : g.occurring = g.decisions) : g.WellFormed where
  names := names
  within := within
  keys := h.rule
  found d hd := h.getElem? (hoccurring ▸ hd)
  once n hn := by
    rw [hoccurring, h.map_number]
    exact List.count_eq_one_of_mem List.nodup_range (List.mem_range.mpr hn)
  nested d hd := h.nested d (hoccurring ▸ hd)
  resolved sequence hs p hp := by
    have hlisted : ∀ d ∈ p.decisions, d ∈ g.decisions := by
      intro d hd
      rw [← hoccurring, Grammar.occurring, List.mem_flatMap]
      exact ⟨sequence, hs, mem_sequenceDecisions.mpr ⟨p, hp, hd⟩⟩
    exact Grammar.resolve_reference h (within sequence hs p hp) hlisted fun d hd =>
      h.lt_length (hlisted d hd)

/--
**Recording yields a well-formed grammar**, whatever the bodies call. It has the name and one
sequence of every rule, in order, the sequence being what is recorded of the body; this is also
what is left on a stack of open sequences. If no decision point is found to be shared, all
decisions have different keys.
-/
theorem wellFormed_recordRules (rules : List (RuleDef τ)) :
    let g := (recordRules rules).1
    recordRulesOpen rules = recordRules rules ∧
    g.names = rules.map (·.name) ∧
    g.size = rules.length ∧
    (∀ (i : RuleId) (rule : RuleDef τ), rules[i]? = some rule → ∃ r : Recorder,
      g.rules[i]? = some (rule.body.record ⟨i, rule.name, ruleId? rules⟩ r).1) ∧
    g.WellFormed ∧
    ((∀ rule site, .sharedDecisionPoint rule site ∉ (recordRules rules).2) →
      (g.decisions.map (·.key)).Nodup) := by
  have hnames : (recordRules rules).1.names = rules.map (·.name) := rfl
  have hsize := size_recordRules rules
  refine ⟨recordRulesOpen_eq rules, hnames, hsize, fun i rule hrule => ?_, ?_,
    distinct_recordRules rules⟩
  · obtain ⟨r, -, hsequence⟩ := exists_record_recordRules hrule
    exact ⟨r, hsequence⟩
  · refine Numbered.wellFormed (hsize ▸ numbered_recordRules rules) ?_ ?_
      (flatMap_decisions_recordRules rules)
    · rw [hnames, List.length_map, hsize]
    · exact fun sequence hs p hp =>
        ((Grammar.sound_recordRules rules).rules sequence hs p hp).imp fun _ h => h.within

end Palette
