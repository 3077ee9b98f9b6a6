import Palette.Grammar.Recording

/-!
# Recording on a stack of open sequences

A body can be recorded while it is run, without knowing where it ends: every primitive adds its
production to the innermost of the sequences that are open. A decision opens a sequence for each
of its bodies and closes it when the body ends, and a rule starts out with one open sequence, which
becomes its own.

Every body leaves the stack as deep as it found it, and all that it adds is what is recorded of it,
at the end of the innermost sequence (`Body.recordOpen_eq`). So no sequence gets what belongs to
another one, however decisions are nested and wherever bodies end.

Main statement: recording on the stack is recording (`recordRulesOpen_eq`).
-/

namespace Palette

/-- What was recorded so far, with the sequences that are open, the innermost first. -/
structure OpenRecorder where
  frames : List (List Production)
  recorder : Recorder

namespace OpenRecorder

/-- Adds a production to the innermost sequence. -/
def push (p : Production) (s : OpenRecorder) : OpenRecorder :=
  match s.frames with
  | [] => s
  | frame :: frames => { s with frames := (frame ++ [p]) :: frames }

/-- Opens a sequence. -/
def opened (s : OpenRecorder) : OpenRecorder := { s with frames := [] :: s.frames }

/-- Closes the innermost sequence. -/
def closed (s : OpenRecorder) : List Production × OpenRecorder :=
  match s.frames with
  | [] => ([], s)
  | frame :: frames => (frame, { s with frames })

/-- Notes an issue. -/
def report (issue : Issue) (s : OpenRecorder) : OpenRecorder :=
  { s with recorder := s.recorder.report issue }

/-- Records a decision and adds it to the innermost sequence. -/
def decide (rule : String) (key : DecisionKey) (kind : DecisionKind)
    (alternatives : List (List Production)) (s : OpenRecorder) : OpenRecorder :=
  let (p, recorder) := s.recorder.decide rule key kind alternatives
  push p { s with recorder }

/-- Records one thing after the other, each on a sequence of its own. -/
def collect {ι : Type} (record : ι → OpenRecorder → OpenRecorder) :
    List ι → OpenRecorder → List (List Production) × OpenRecorder
  | [], s => ([], s)
  | i :: rest, s =>
    let (sequence, s) := (record i s.opened).closed
    let (sequences, s) := collect record rest s
    (sequence :: sequences, s)

end OpenRecorder

variable {τ : Type} [Inhabited τ]

/-- Runs a body and records what it calls. -/
def Body.recordOpen {α : Type} (rule : RecordedRule) : Body τ α → OpenRecorder → OpenRecorder
  | .done _, s => s
  | .fail, s => s
  | .consume kind next, s =>
    (next (some { (default : Token) with kind })).recordOpen rule (s.push (.terminal kind))
  | .subrule name next, s =>
    match rule.find name with
    | none => (next (some default)).recordOpen rule (s.report (.unresolvedRule rule.name name))
    | some id => (next (some default)).recordOpen rule (s.push (.nonterminal id))
  | .option site body next, s =>
    let (inner, s) := (body.recordOpen rule s.opened).closed
    (next (some none)).recordOpen rule (s.decide rule.name ⟨rule.id, site⟩ .option [inner])
  | .many site initial round next, s =>
    let (inner, s) := ((round initial).recordOpen rule s.opened).closed
    (next (some initial)).recordOpen rule (s.decide rule.name ⟨rule.id, site⟩ .many [inner])
  | .atLeastOne site initial round next, s =>
    let (inner, s) := ((round initial).recordOpen rule s.opened).closed
    (next (some initial)).recordOpen rule (s.decide rule.name ⟨rule.id, site⟩ .atLeastOne [inner])
  | .choose site count alternatives blank next, s =>
    let (inner, s) :=
      OpenRecorder.collect (fun i s => (alternatives i).recordOpen rule s) (List.finRange count) s
    (next (some blank)).recordOpen rule (s.decide rule.name ⟨rule.id, site⟩ .alternation inner)
  | .action _ next, s => next.recordOpen rule s
  | .lookahead _ next, s => (next default).recordOpen rule s
  | .recording next, s => (next true).recordOpen rule s
  | .progress next, s => (next ⟨true, 0, 0, 0⟩).recordOpen rule s

/-- Records a rule behind those before it: begins it with its name and one open sequence, and ends
it with what is in there. -/
def recordRuleOpen (rules : List (RuleDef τ)) (state : Grammar × List Issue)
    (entry : RuleDef τ × RuleId) : Grammar × List Issue :=
  let (g, issues) := state
  let names := g.names ++ [entry.1.name]
  let (sequence, s) := (entry.1.body.recordOpen ⟨entry.2, entry.1.name, ruleId? rules⟩
    ⟨[[]], ⟨g.decisions, issues⟩⟩).closed
  (⟨names, g.rules ++ [sequence], s.recorder.decisions⟩, s.recorder.issues)

/-- Records all rules, in order. -/
def recordRulesOpen (rules : List (RuleDef τ)) : Grammar × List Issue :=
  rules.zipIdx.foldl (recordRuleOpen rules) (⟨[], [], []⟩, [])

/-! ## What is left on the stack -/

section

variable {rule : RecordedRule} {frame : List Production} {frames : List (List Production)}
  {r : Recorder}

/-- What is recorded on a sequence of its own is all that is in there when it is closed. -/
theorem OpenRecorder.closed_opened {record : OpenRecorder → OpenRecorder}
    {recorded : List Production × Recorder}
    (h : record ⟨[] :: frame :: frames, r⟩ = ⟨recorded.1 :: frame :: frames, recorded.2⟩) :
    (record (opened ⟨frame :: frames, r⟩)).closed
      = (recorded.1, ⟨frame :: frames, recorded.2⟩) := by
  rw [opened, h, closed]

/-- A decision, and what follows it, are added to the innermost sequence. -/
theorem OpenRecorder.record_decide {rest : OpenRecorder → OpenRecorder} {key : DecisionKey}
    {kind : DecisionKind} {alternatives : List (List Production)}
    {recorded : Recorder → List Production × Recorder}
    (h : ∀ (frame : List Production) (r : Recorder),
      rest ⟨frame :: frames, r⟩ = ⟨(frame ++ (recorded r).1) :: frames, (recorded r).2⟩) :
    rest (decide rule.name key kind alternatives ⟨frame :: frames, r⟩) =
      ⟨(frame ++ (r.decide rule.name key kind alternatives).1 ::
          (recorded (r.decide rule.name key kind alternatives).2).1) :: frames,
        (recorded (r.decide rule.name key kind alternatives).2).2⟩ := by
  have hdecide : decide rule.name key kind alternatives ⟨frame :: frames, r⟩ =
      ⟨(frame ++ [(r.decide rule.name key kind alternatives).1]) :: frames,
        (r.decide rule.name key kind alternatives).2⟩ := rfl
  rw [hdecide, h, List.append_assoc, List.singleton_append]

theorem OpenRecorder.collect_eq {ι : Type} {record : ι → OpenRecorder → OpenRecorder}
    {recorded : ι → Recorder → List Production × Recorder}
    (h : ∀ (i : ι) (frames : List (List Production)) (r : Recorder),
      record i ⟨[] :: frames, r⟩ = ⟨(recorded i r).1 :: frames, (recorded i r).2⟩)
    (l : List ι) (r : Recorder) : collect record l ⟨frame :: frames, r⟩ =
      ((Recorder.collect recorded l r).1,
        ⟨frame :: frames, (Recorder.collect recorded l r).2⟩) := by
  induction l generalizing r with
  | nil => rfl
  | cons i rest ih =>
    rw [collect, closed_opened (h i _ r)]
    simp only [ih, Recorder.collect]

/-- **A body adds what is recorded of it to the innermost sequence** and leaves the others as they
are. -/
theorem Body.recordOpen_eq {α : Type} (b : Body τ α) (frame : List Production)
    (frames : List (List Production)) (r : Recorder) :
    b.recordOpen rule ⟨frame :: frames, r⟩ =
      ⟨(frame ++ (b.record rule r).1) :: frames, (b.record rule r).2⟩ := by
  -- The stack is generalized, since a body inside of a decision runs on a deeper one.
  induction b generalizing frame frames r with
  | done a => rw [recordOpen, record, List.append_nil]
  | fail => rw [recordOpen, record, List.append_nil]
  | consume kind next ih =>
    rw [recordOpen, record, OpenRecorder.push, ih, List.append_assoc, List.singleton_append]
  | subrule name next ih =>
    rw [recordOpen, record]
    cases rule.find name with
    | none => exact ih _ frame frames _
    | some id => exact (ih _ _ frames r).trans (by rw [List.append_assoc, List.singleton_append])
  | option site body next ihbody ih =>
    rw [recordOpen, OpenRecorder.closed_opened (ihbody [] _ r)]
    exact OpenRecorder.record_decide fun frame r => ih _ frame frames r
  | many site initial round next ihround ih =>
    rw [recordOpen, OpenRecorder.closed_opened (ihround initial [] _ r)]
    exact OpenRecorder.record_decide fun frame r => ih _ frame frames r
  | atLeastOne site initial round next ihround ih =>
    rw [recordOpen, OpenRecorder.closed_opened (ihround initial [] _ r)]
    exact OpenRecorder.record_decide fun frame r => ih _ frame frames r
  | choose site count alternatives blank next ihalt ih =>
    rw [recordOpen, OpenRecorder.collect_eq fun i frames r => ihalt i [] frames r]
    exact OpenRecorder.record_decide fun frame r => ih _ frame frames r
  | action event next ih => exact ih frame frames r
  | lookahead number next ih => exact ih _ frame frames r
  | recording next ih => exact ih _ frame frames r
  | progress next ih => exact ih _ frame frames r

end

/-! ## All rules -/

theorem recordRuleOpen_eq (rules : List (RuleDef τ)) (g : Grammar) (issues : List Issue)
    (entry : RuleDef τ × RuleId) (hentry : rules[entry.2]? = some entry.1) :
    let recorded := recordRule rules (entry.1.name, entry.2) ⟨g.decisions, issues⟩
    recordRuleOpen rules (g, issues) entry =
      (⟨g.names ++ [entry.1.name], g.rules ++ [recorded.1], recorded.2.decisions⟩,
        recorded.2.issues) := by
  have hrecord : recordRule rules (entry.1.name, entry.2) ⟨g.decisions, issues⟩ =
      entry.1.body.record ⟨entry.2, entry.1.name, ruleId? rules⟩ ⟨g.decisions, issues⟩ := by
    simp only [recordRule, hentry]
  rw [hrecord, recordRuleOpen, Body.recordOpen_eq]
  rfl

/-- Each rule adds its name, its sequence, and its decisions and issues to those before. -/
theorem foldl_recordRuleOpen {rules : List (RuleDef τ)} {entries : List (RuleDef τ × RuleId)}
    (hentries : ∀ entry ∈ entries, rules[entry.2]? = some entry.1) (g : Grammar)
    (issues : List Issue) :
    let recorded := Recorder.collect (recordRule rules)
      (entries.map fun entry => (entry.1.name, entry.2)) ⟨g.decisions, issues⟩
    entries.foldl (recordRuleOpen rules) (g, issues) =
      (⟨g.names ++ entries.map (·.1.name), g.rules ++ recorded.1, recorded.2.decisions⟩,
        recorded.2.issues) := by
  induction entries generalizing g issues with
  | nil => simp [Recorder.collect]
  | cons entry rest ih =>
    obtain ⟨hentry, hrest⟩ := List.forall_mem_cons.mp hentries
    rw [List.foldl_cons, recordRuleOpen_eq rules g issues entry hentry, ih hrest]
    simp [Recorder.collect]

/-- **Recording on the stack is recording**: it ends with the same grammar and the same issues. -/
theorem recordRulesOpen_eq (rules : List (RuleDef τ)) :
    recordRulesOpen rules = recordRules rules := by
  have hzip : rules.zipIdx.map (fun entry => (entry.1.name, entry.2))
      = (rules.map (·.name)).zipIdx := by
    rw [List.zipIdx_map]
    rfl
  have hnames : rules.zipIdx.map (·.1.name) = rules.map (·.name) :=
    (List.map_map (f := Prod.fst) (g := RuleDef.name)).symm.trans (by rw [List.zipIdx_map_fst])
  have hentries : ∀ entry ∈ rules.zipIdx, rules[entry.2]? = some entry.1 :=
    fun _ h => List.mem_zipIdx_iff_getElem?.mp h
  have hall := foldl_recordRuleOpen hentries ⟨[], [], []⟩ []
  rw [hzip, hnames] at hall
  exact hall

end Palette
