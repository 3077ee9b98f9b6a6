import Palette.Proofs.Grammar.Numbering
import Palette.Proofs.Grammar.Tables

/-!
# Every decision has its own table

Recording lists each decision as it writes it down, and objects to a second one with the same key.
So in an accepted grammar a decision inside of a rule is among the listed ones, no other has its
key, and what the recognizer finds under that key is the table of this decision and not that of
another one. The other way round, each decision that is listed occurs in a rule. Only alternations
are recorded with any other number of alternatives than one.

Main statements: `Body.listed_record`, `all_recordRules`, `Body.singleBodied_record` and
`GrammarDef.Accepted.exists_exact_table`.
-/

namespace Palette

/-! ## Decisions are listed -/

/-- The production does not ask for the end of the input, and if it is a decision it is one of the
list. -/
def Production.Listed (ds : List Decision) : Production → Prop
  | .terminal kind => kind ≠ .endOfInput
  | .nonterminal _ => True
  | .decision number key kind alternatives => ⟨number, key, kind, alternatives⟩ ∈ ds

theorem Production.Listed.mono {ds ds' : List Decision} (hsub : ds ⊆ ds') {p : Production}
    (h : p.Listed ds) : p.Listed ds' := by
  cases p with
  | terminal kind => exact h
  | nonterminal r => trivial
  | decision number key kind alternatives => exact hsub h

/-- Everything in the sequence is listed. -/
def ListedSequence (ds : List Decision) (sequence : List Production) : Prop :=
  ∀ p ∈ sequence, p.All (Production.Listed ds)

namespace ListedSequence

variable {ds ds' : List Decision} {p : Production} {ps : List Production}

theorem nil : ListedSequence ds [] := nofun

theorem cons (h : p.All (Production.Listed ds)) (h' : ListedSequence ds ps) :
    ListedSequence ds (p :: ps) :=
  List.forall_mem_cons.mpr ⟨h, h'⟩

theorem head (h : ListedSequence ds (p :: ps)) : p.All (Production.Listed ds) :=
  h p List.mem_cons_self

theorem tail (h : ListedSequence ds (p :: ps)) : ListedSequence ds ps :=
  (List.forall_mem_cons.mp h).2

theorem mono (h : ListedSequence ds ps) (hsub : ds ⊆ ds') : ListedSequence ds' ps :=
  fun p hp => (h p hp).imp fun _ => .mono hsub

end ListedSequence

namespace Recorder

/-- What holds of everything that is recorded in a row, and goes on to hold while more is
recorded, holds in the end. -/
theorem forall_mem_collect {ι β : Type} {record : ι → Recorder → β × Recorder}
    (hextends : ∀ (i : ι) (r : Recorder), r.Extends (record i r).2)
    {P : Recorder → β → Prop} (hmono : ∀ r r' b, r.Extends r' → P r b → P r' b) {l : List ι}
    (h : ∀ i ∈ l, ∀ r, P (record i r).2 (record i r).1) (r : Recorder) :
    ∀ b ∈ (collect record l r).1, P (collect record l r).2 b := by
  induction l generalizing r with
  | nil => exact nofun
  | cons i rest ih =>
    obtain ⟨hi, hrest⟩ := List.forall_mem_cons.mp h
    exact List.forall_mem_cons.mpr
      ⟨hmono _ _ _ (extends_collect hextends rest _) (hi r), ih hrest _⟩

variable {r r' : Recorder}

theorem Extends.listed (h : r.Extends r') {ps : List Production}
    (hps : ListedSequence r.decisions ps) : ListedSequence r'.decisions ps :=
  hps.mono fun _ => h.mem_decisions

/-- A decision about listed sequences is listed itself, whatever is recorded behind it. -/
theorem listed_decide {rule : String} {key : DecisionKey} {kind : DecisionKind}
    {alternatives : List (List Production)} {ps : List Production}
    (hinside : ∀ sequence ∈ alternatives, ListedSequence r.decisions sequence)
    (hextends : (r.decide rule key kind alternatives).2.Extends r')
    (hps : ListedSequence r'.decisions ps) :
    ListedSequence r'.decisions ((r.decide rule key kind alternatives).1 :: ps) := by
  have hbefore := (extends_decide r rule key kind alternatives).trans hextends
  have hmem : ⟨r.decisions.length, key, kind, alternatives⟩ ∈ r'.decisions := by
    refine hextends.mem_decisions ?_
    rw [decisions_decide]
    exact List.mem_append_right _ List.mem_cons_self
  exact .cons (.decision hmem fun sequence h => hbefore.listed (hinside sequence h)) hps

end Recorder

section

variable {τ : Type} [Inhabited τ]

/-- **All that is recorded of a static body is listed**, and no terminal of it is the end of the
input. -/
theorem Body.listed_record {rule : RecordedRule} {α : Type} {b : Body τ α} {calls : List Call}
    (hb : b.Makes calls) (r : Recorder) :
    ListedSequence (b.record rule r).2.decisions (b.record rule r).1 := by
  induction b generalizing calls r with
  | done a => exact .nil
  | fail => exact hb.elim
  | consume kind next ih =>
    obtain ⟨hkind, -, rest, rfl, hnext⟩ := hb
    exact .cons (.terminal hkind) (ih _ (hnext _) r)
  | subrule name next ih =>
    obtain ⟨-, rest, rfl, hnext⟩ := hb
    rw [record]
    cases rule.find name with
    | none => exact ih _ (hnext _) _
    | some id => exact .cons (.nonterminal trivial) (ih _ (hnext _) r)
  | option site body next ihbody ih =>
    obtain ⟨-, inner, rest, rfl, hbody, hnext⟩ := hb
    exact Recorder.listed_decide (List.forall_mem_singleton.mpr (ihbody hbody r))
      (extends_record rule (next _) _) (ih _ (hnext _) _)
  | many site initial round next ihround ih =>
    obtain ⟨-, inner, rest, rfl, hround, hnext⟩ := hb
    exact Recorder.listed_decide (List.forall_mem_singleton.mpr (ihround _ (hround _) r))
      (extends_record rule (next _) _) (ih _ (hnext _) _)
  | atLeastOne site initial round next ihround ih =>
    obtain ⟨-, inner, rest, rfl, hround, hnext⟩ := hb
    exact Recorder.listed_decide (List.forall_mem_singleton.mpr (ihround _ (hround _) r))
      (extends_record rule (next _) _) (ih _ (hnext _) _)
  | choose site count alternatives blank next ihalt ih =>
    obtain ⟨-, inner, rest, rfl, hlen, halt, hnext⟩ := hb
    have hinside := Recorder.forall_mem_collect
      (fun i r => extends_record rule (alternatives i) r)
      (P := fun r ps => ListedSequence r.decisions ps) (fun _ _ _ h => h.listed)
      (l := List.finRange count)
      (fun i _ r => ihalt i (halt i _ (List.getElem?_eq_getElem (hlen ▸ i.isLt))) r) r
    exact Recorder.listed_decide hinside (extends_record rule (next _) _) (ih _ (hnext _) _)
  | action event next ih => exact ih hb r
  | lookahead number next ih => exact hb.elim
  | recording next ih => exact hb.elim
  | progress next ih => exact hb.elim

/-- The sequences of static rules are listed among the decisions of their grammar. -/
theorem GrammarDef.IsStatic.listed {d : GrammarDef τ} (hstatic : d.IsStatic) (r : RuleId) :
    ListedSequence (recordRules d.rules).1.decisions ((recordRules d.rules).1.rule r) := by
  refine rule_recordRules .nil (fun r rule before hrule hextends => ?_) r
  obtain ⟨calls, hcalls⟩ := hstatic rule (List.mem_of_getElem? hrule)
  exact hextends.listed (Body.listed_record hcalls before)

end

/-! ## Decisions occur in rules -/

section

variable {τ : Type} [Inhabited τ] {Q : Production → Prop}

/-- What holds of everything in the rules of a grammar holds of all that is inside of the decisions
that it lists, since **each of them occurs in a rule**. -/
theorem all_recordRules {rules : List (RuleDef τ)}
    (h : ∀ r, ∀ p ∈ (recordRules rules).1.rule r, p.All Q) :
    ∀ d ∈ (recordRules rules).1.decisions, d.production.All Q := by
  intro d hd
  rw [← flatMap_decisions_recordRules, List.mem_flatMap] at hd
  obtain ⟨sequence, hsequence, hd⟩ := hd
  obtain ⟨p, hp, hd⟩ := mem_sequenceDecisions.mp hd
  obtain ⟨r, hr⟩ := List.mem_iff_getElem?.mp hsequence
  have hrule : (recordRules rules).1.rule r = sequence := by
    rw [Grammar.rule, hr, Option.getD_some]
  exact (h r p (hrule ▸ hp)).occurring d hd

/-- Everything inside of a decision of a static definition is listed. -/
theorem GrammarDef.IsStatic.listed_decision {d : GrammarDef τ} (hstatic : d.IsStatic) {e : Decision}
    (he : e ∈ (recordRules d.rules).1.decisions) :
    e.production.All (Production.Listed (recordRules d.rules).1.decisions) :=
  all_recordRules hstatic.listed e he

end

/-! ## Decisions with a single body -/

/-- The production has one alternative, unless it is an alternation or no decision at all. -/
def Production.SingleBodied : Production → Prop
  | .decision _ _ kind alternatives => kind ≠ .alternation → ∃ body, alternatives = [body]
  | _ => True

section

variable {τ : Type} [Inhabited τ]

/-- A decision about one body, recorded in front of others. -/
theorem forall_singleBodied_cons {number : Nat} {key : DecisionKey} {kind : DecisionKind}
    {body ps : List Production} (hbody : ∀ p ∈ body, p.All Production.SingleBodied)
    (hps : ∀ p ∈ ps, p.All Production.SingleBodied) :
    ∀ p ∈ Production.decision number key kind [body] :: ps, p.All Production.SingleBodied :=
  List.forall_mem_cons.mpr
    ⟨.decision (fun _ => ⟨body, rfl⟩) (List.forall_mem_singleton.mpr hbody), hps⟩

/-- **Options and repetitions are recorded with one body.** -/
theorem Body.singleBodied_record (rule : RecordedRule) {α : Type} (b : Body τ α) (r : Recorder) :
    ∀ p ∈ (b.record rule r).1, p.All Production.SingleBodied := by
  induction b generalizing r with
  | done a => exact nofun
  | fail => exact nofun
  | consume kind next ih => exact List.forall_mem_cons.mpr ⟨.terminal trivial, ih _ r⟩
  | subrule name next ih =>
    rw [record]
    cases rule.find name with
    | none => exact ih _ _
    | some id => exact List.forall_mem_cons.mpr ⟨.nonterminal trivial, ih _ r⟩
  | option site body next ihbody ih => exact forall_singleBodied_cons (ihbody r) (ih _ _)
  | many site initial round next ihround ih =>
    exact forall_singleBodied_cons (ihround _ r) (ih _ _)
  | atLeastOne site initial round next ihround ih =>
    exact forall_singleBodied_cons (ihround _ r) (ih _ _)
  | choose site count alternatives blank next ihalt ih =>
    have hinside := Recorder.forall_mem_collect
      (fun i r => extends_record rule (alternatives i) r)
      (P := fun _ ps => ∀ p ∈ ps, p.All Production.SingleBodied) (fun _ _ _ _ h => h)
      (l := List.finRange count) (fun i _ r => ihalt i r) r
    exact List.forall_mem_cons.mpr ⟨.decision (absurd rfl) hinside, ih _ _⟩
  | action event next ih => exact ih r
  | lookahead number next ih => exact ih _ r
  | recording next ih => exact ih _ r
  | progress next ih => exact ih _ r

/-- All decisions in the rules of a recorded grammar have a single body, or are alternations. -/
theorem singleBodied_recordRules (rules : List (RuleDef τ)) (r : RuleId) :
    ∀ p ∈ (recordRules rules).1.rule r, p.All Production.SingleBodied :=
  rule_recordRules (P := fun ps => ∀ p ∈ ps, p.All Production.SingleBodied) nofun
    (fun _ rule before _ _ => rule.body.singleBodied_record _ before) r

end

/-! ## The table under a key -/

/-- **The decisions of a grammar have different keys** where recording finds no issue. -/
theorem nodup_keys_recordRules {τ : Type} [Inhabited τ] {rules : List (RuleDef τ)}
    (h : (recordRules rules).2 = []) : ((recordRules rules).1.decisions.map (·.key)).Nodup :=
  distinct_recordRules rules fun _ _ => h ▸ List.not_mem_nil

namespace Grammar

variable {ds : List Decision} {ts : List DecisionTable} {l : Lookahead}

/-- Tables of other decisions leave the one under a key alone. -/
theorem table?_insertTables_of_not_mem {key : DecisionKey} (h : key ∉ ds.map (·.key)) :
    (insertTables l ds ts).table? key = l.table? key := by
  induction ds generalizing ts l with
  | nil => rfl
  | cons d ds ih =>
    cases ts with
    | nil => rfl
    | cons t ts =>
      rw [List.map_cons, List.mem_cons, not_or] at h
      exact (ih h.2).trans (Lookahead.table?_insert_of_ne h.1 t l)

/-- Under its key, a decision has the table in its place. -/
theorem exists_mem_zip_table? (hkeys : (ds.map (·.key)).Nodup) (hlen : ds.length = ts.length)
    {d : Decision} (hd : d ∈ ds) :
    ∃ table, (d, table) ∈ ds.zip ts ∧ (insertTables l ds ts).table? d.key = some table := by
  induction ds generalizing ts l with
  | nil => cases hd
  | cons e ds ih =>
    cases ts with
    | nil => cases hlen
    | cons t ts =>
      rw [List.map_cons, List.nodup_cons] at hkeys
      rcases List.mem_cons.mp hd with rfl | hd
      · exact ⟨t, List.mem_cons_self,
          (table?_insertTables_of_not_mem hkeys.1).trans (Lookahead.table?_insert_self ..)⟩
      · obtain ⟨table, hmem, htable⟩ := ih hkeys.2 (Nat.succ.inj hlen) hd
        exact ⟨table, List.mem_cons_of_mem _ hmem, htable⟩

end Grammar

/-- **Under the key of each decision is its own exact table**, in which the alternatives can be told
apart, where the tables were computed without an issue. -/
theorem Grammar.exists_exact_table {g : Grammar} {clean : Prop} (hg : g.Sound clean)
    (hleft : g.leftRecursion = []) (hkeys : (g.decisions.map (·.key)).Nodup) {v : Vocabulary}
    {budget : Nat} {tables : Lookahead} (h : g.lookahead? v budget = some (tables, []))
    {e : Decision} (he : e ∈ g.decisions) :
    ∃ table, tables.table? e.key = some table ∧ g.IsTable budget e table ∧ Unambiguous v table := by
  obtain ⟨ts, hts, hlookahead⟩ := exists_lookahead hg hleft v budget
  rw [h, Option.some.injEq, Prod.mk.injEq] at hlookahead
  obtain ⟨rfl, hissues⟩ := hlookahead
  obtain ⟨table, hmem, htable⟩ := exists_mem_zip_table? (l := []) hkeys hts.length_eq he
  have hexact := List.forall₂_zip hts hmem
  exact ⟨table, htable, hexact,
    hexact.unambiguous (List.flatMap_eq_nil_iff.mp hissues.symm _ hmem)⟩

/-- **The recognizer reads the table of each decision under its key**, and can tell the
alternatives apart. -/
theorem GrammarDef.Accepted.exists_exact_table {τ : Type} [Inhabited τ] {d : GrammarDef τ}
    {config : ParserConfig} {p : Parser τ} (h : d.Accepted config p) {e : Decision}
    (he : e ∈ (recordRules d.rules).1.decisions) :
    ∃ table, p.lookahead.table? e.key = some table ∧
      (recordRules d.rules).1.IsTable p.config.maxLookahead e table ∧
      Unambiguous p.vocabulary table := by
  rw [h.vocabulary]
  exact Grammar.exists_exact_table (Grammar.sound_recordRules d.rules) h.leftRecursion
    (nodup_keys_recordRules h.recorded) h.lookahead he

end Palette
