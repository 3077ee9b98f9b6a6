import Mathlib.Data.List.Nodup
import Palette.Proofs.Grammar.Nullable
import Palette.Proofs.Grammar.Shape

/-!
# What a grammar describes does not depend on the order of its rules

The index of a rule is its place among the rules, and decisions are numbered across all of them.
In another order of the same rules, what is recorded of a body has other indices and numbers in
it, but it is alike: the indices that stand in the same place are those of the same rule
(`Body.alike_record`).

Whether a rule is nullable is therefore the same in every order. It is no matter of the order in
which rules are marked either: the marks that are left are the least that are closed, and they are
those of the rules that derive the empty word.

Main statements: `Body.alike_record`, `SequenceAlike.nullable` and `nullableRules_exact`.
-/

namespace Palette

/-! ## Alike productions -/

mutual

/-- The productions differ in nothing but the numbers and keys of decisions and in rules that are
the same. -/
inductive Production.Alike (same : RuleId → RuleId → Prop) : Production → Production → Prop where
  | terminal {kind} : Production.Alike same (.terminal kind) (.terminal kind)
  | nonterminal {r r'} (here : same r r') :
    Production.Alike same (.nonterminal r) (.nonterminal r')
  | decision {number number' key key' kind alternatives alternatives'}
      (inside : AlternativesAlike same alternatives alternatives') :
    Production.Alike same (.decision number key kind alternatives)
      (.decision number' key' kind alternatives')

/-- The sequences are alike, production by production. -/
inductive SequenceAlike (same : RuleId → RuleId → Prop) :
    List Production → List Production → Prop where
  | nil : SequenceAlike same [] []
  | cons {p p' ps ps'} (head : Production.Alike same p p') (tail : SequenceAlike same ps ps') :
    SequenceAlike same (p :: ps) (p' :: ps')

/-- The alternatives are alike, one by one. -/
inductive AlternativesAlike (same : RuleId → RuleId → Prop) :
    List (List Production) → List (List Production) → Prop where
  | nil : AlternativesAlike same [] []
  | cons {ps ps' rest rest'} (head : SequenceAlike same ps ps')
      (tail : AlternativesAlike same rest rest') :
    AlternativesAlike same (ps :: rest) (ps' :: rest')

end

/-- Where a rule is marked, those that are the same as it are marked as well. -/
def MarksAlike (same : RuleId → RuleId → Prop) (marked marked' : RuleId → Bool) : Prop :=
  ∀ r r', same r r' → marked r = true → marked' r' = true

section

variable {same : RuleId → RuleId → Prop} {marked marked' : RuleId → Bool}

mutual

theorem MarksAlike.production (hm : MarksAlike same marked marked') {p p' : Production}
    (h : Production.Alike same p p') (hp : p.isNullable marked = true) :
    p'.isNullable marked' = true :=
  match p, p', h with
  | _, _, .terminal => by simp [Production.isNullable] at hp
  | _, _, .nonterminal here => by
    rw [Production.isNullable] at hp ⊢
    exact hm _ _ here hp
  | .decision _ _ .option _, _, .decision _ => by rw [Production.isNullable]
  | .decision _ _ .many _, _, .decision _ => by rw [Production.isNullable]
  | .decision _ _ .atLeastOne _, _, .decision inside => by
    rw [Production.isNullable] at hp ⊢
    exact hm.body inside hp
  | .decision _ _ .alternation _, _, .decision inside => by
    rw [Production.isNullable] at hp ⊢
    exact hm.alternatives inside hp

/-- **What is alike is nullable alike**, by marks of the same rules. -/
theorem MarksAlike.sequence (hm : MarksAlike same marked marked') {ps ps' : List Production}
    (h : SequenceAlike same ps ps') (hps : sequenceNullable marked ps = true) :
    sequenceNullable marked' ps' = true :=
  match ps, ps', h with
  | _, _, .nil => by rw [sequenceNullable]
  | _, _, .cons head tail => by
    rw [sequenceNullable, Bool.and_eq_true] at hps ⊢
    exact ⟨hm.production head hps.1, hm.sequence tail hps.2⟩

theorem MarksAlike.body (hm : MarksAlike same marked marked')
    {bodies bodies' : List (List Production)} (h : AlternativesAlike same bodies bodies')
    (hbody : bodyNullable marked bodies = true) : bodyNullable marked' bodies' = true :=
  match bodies, bodies', h with
  | _, _, .nil => by rw [bodyNullable]
  | _, _, .cons head _ => by
    rw [bodyNullable] at hbody ⊢
    exact hm.sequence head hbody

theorem MarksAlike.alternatives (hm : MarksAlike same marked marked')
    {alternatives alternatives' : List (List Production)}
    (h : AlternativesAlike same alternatives alternatives')
    (hsome : someNullable marked alternatives = true) :
    someNullable marked' alternatives' = true :=
  match alternatives, alternatives', h with
  | _, _, .nil => by simp [someNullable] at hsome
  | _, _, .cons head tail => by
    rw [someNullable, Bool.or_eq_true] at hsome ⊢
    exact hsome.imp (hm.sequence head) (hm.alternatives tail)

end

mutual

theorem Production.Alike.refl (p : Production) : Production.Alike Eq p p :=
  match p with
  | .terminal _ => .terminal
  | .nonterminal _ => .nonterminal rfl
  | .decision _ _ _ alternatives => .decision (AlternativesAlike.refl alternatives)

theorem SequenceAlike.refl (ps : List Production) : SequenceAlike Eq ps ps :=
  match ps with
  | [] => .nil
  | p :: rest => .cons (Production.Alike.refl p) (SequenceAlike.refl rest)

theorem AlternativesAlike.refl (alternatives : List (List Production)) :
    AlternativesAlike Eq alternatives alternatives :=
  match alternatives with
  | [] => .nil
  | sequence :: rest => .cons (SequenceAlike.refl sequence) (AlternativesAlike.refl rest)

end

/-- With more marks, more is nullable. -/
theorem sequenceNullable_mono (hm : ∀ r, marked r = true → marked' r = true)
    {ps : List Production} (h : sequenceNullable marked ps = true) :
    sequenceNullable marked' ps = true := by
  have halike : MarksAlike Eq marked marked' := fun r _ hr => hr ▸ hm r
  exact halike.sequence (SequenceAlike.refl ps) h

end

/-! ## Recording the same body -/

section

variable {τ : Type} [Inhabited τ] {same : RuleId → RuleId → Prop}

theorem Recorder.alike_collect {ι : Type}
    {record record' : ι → Recorder → List Production × Recorder}
    (h : ∀ (i : ι) (r r' : Recorder), SequenceAlike same (record i r).1 (record' i r').1)
    (l : List ι) (r r' : Recorder) :
    AlternativesAlike same (collect record l r).1 (collect record' l r').1 := by
  induction l generalizing r r' with
  | nil => exact .nil
  | cons i rest ih => exact .cons (h i r r') (ih _ _)

/-- **What is recorded of a body is alike**, whatever was recorded before, where names stand for
the same rules. -/
theorem Body.alike_record {rule rule' : RecordedRule}
    (hfind : ∀ name, Option.Rel same (rule.find name) (rule'.find name)) {α : Type} (b : Body τ α)
    (r r' : Recorder) : SequenceAlike same (b.record rule r).1 (b.record rule' r').1 := by
  induction b generalizing r r' with
  | done a => exact .nil
  | fail => exact .nil
  | consume kind next ih => exact .cons .terminal (ih _ r r')
  | subrule name next ih =>
    have hname := hfind name
    rw [record, record]
    generalize rule.find name = found, rule'.find name = found' at hname ⊢
    cases hname with
    | some here => exact .cons (.nonterminal here) (ih _ r r')
    | none => exact ih _ _ _
  | option site body next ihbody ih =>
    exact .cons (.decision (.cons (ihbody r r') .nil)) (ih _ _ _)
  | many site initial round next ihround ih =>
    exact .cons (.decision (.cons (ihround _ r r') .nil)) (ih _ _ _)
  | atLeastOne site initial round next ihround ih =>
    exact .cons (.decision (.cons (ihround _ r r') .nil)) (ih _ _ _)
  | choose site count alternatives blank next ihalt ih =>
    exact .cons (.decision (Recorder.alike_collect ihalt _ r r')) (ih _ _ _)
  | action event next ih => exact ih r r'
  | lookahead number next ih => exact ih _ r r'
  | recording next ih => exact ih _ r r'
  | progress next ih => exact ih _ r r'

end

/-! ## The same rules in another order -/

section

variable {τ : Type} {rules rules' : List (RuleDef τ)}

/-- The same rule stands at the one place in the one list and at the other place in the other. -/
def SameRule (rules rules' : List (RuleDef τ)) (r r' : RuleId) : Prop :=
  ∃ rule, rules[r]? = some rule ∧ rules'[r']? = some rule

/-- The index of a name is that of the rule found by it. -/
theorem bind_ruleId? (rules : List (RuleDef τ)) (name : String) :
    (ruleId? rules name).bind (rules[·]?) = rules.find? (·.name == name) := by
  induction rules with
  | nil => rfl
  | cons rule rest ih =>
    rw [ruleId?, List.findIdx?_cons, List.find?_cons]
    split
    · simp [*]
    · simp only [*, Option.bind_map]
      exact ih

/-- Where a name is found to stand for the same rule, it has the indices of this rule. -/
theorem rel_ruleId? {name : String}
    (hfind : rules'.find? (·.name == name) = rules.find? (·.name == name)) :
    Option.Rel (SameRule rules rules') (ruleId? rules name) (ruleId? rules' name) := by
  rw [← bind_ruleId?, ← bind_ruleId?] at hfind
  cases hr : ruleId? rules name with
  | none =>
    cases hr' : ruleId? rules' name with
    | none => exact .none
    | some r' =>
      rw [hr, hr', Option.bind_some, Option.bind_none,
        List.getElem?_eq_getElem (lt_length_of_ruleId? hr')] at hfind
      cases hfind
  | some r =>
    have hrule := List.getElem?_eq_getElem (lt_length_of_ruleId? hr)
    cases hr' : ruleId? rules' name with
    | none =>
      rw [hr, hr', Option.bind_some, Option.bind_none, hrule] at hfind
      cases hfind
    | some r' =>
      rw [hr, hr', Option.bind_some, Option.bind_some, hrule] at hfind
      exact .some ⟨_, hrule, hfind⟩

/-- Where all names differ, a name stands for the same rule in every order. -/
theorem find?_eq_of_perm (hperm : rules.Perm rules') (hnames : (rules.map (·.name)).Nodup)
    (name : String) :
    rules'.find? (·.name == name) = rules.find? (·.name == name) := by
  cases hrule : rules.find? (·.name == name) with
  | none =>
    rw [List.find?_eq_none] at hrule ⊢
    exact fun rule hmem => hrule rule (hperm.mem_iff.mpr hmem)
  | some rule =>
    have hmem := List.mem_of_find?_eq_some hrule
    have hname := List.find?_some hrule
    obtain ⟨rule', hrule'⟩ := Option.isSome_iff_exists.mp
      (List.find?_isSome (p := (·.name == name)).mpr ⟨rule, hperm.mem_iff.mp hmem, hname⟩)
    have hmem' := hperm.mem_iff.mpr (List.mem_of_find?_eq_some hrule')
    have hname' := List.find?_some hrule'
    rw [hrule', List.inj_on_of_nodup_map hnames hmem' hmem
      ((beq_iff_eq.mp hname').trans (beq_iff_eq.mp hname).symm)]

end

/-! ## Nullable rules in another order -/

section

variable {τ : Type} [Inhabited τ] {rules rules' : List (RuleDef τ)} {r r' : RuleId}

/-- A rule that is nullable among some rules is nullable among others, where all names stand for
the same rules. -/
theorem isNullable_of_sameRule
    (hfind : ∀ name, rules'.find? (·.name == name) = rules.find? (·.name == name))
    (hsame : SameRule rules rules' r r') (h : (recordRules rules).1.isNullable r = true) :
    (recordRules rules').1.isNullable r' = true := by
  refine Grammar.forall_nullable (P := fun r => ∀ r', SameRule rules rules' r r' →
    (recordRules rules').1.isNullable r' = true) ?_ h r' hsame
  rintro marked hmarked r - hnull r' ⟨rule, hrule, hrule'⟩
  obtain ⟨before, -, hsequence⟩ := exists_record_recordRules hrule
  obtain ⟨before', -, hsequence'⟩ := exists_record_recordRules hrule'
  have hmarks : MarksAlike (SameRule rules rules') marked.contains
      (recordRules rules').1.isNullable :=
    fun q q' hq hmem => hmarked q (List.contains_iff_mem.mp hmem) q' hq
  refine Grammar.isNullable_of_sequenceNullable (List.getElem?_eq_some_iff.mp hsequence').1 ?_
  rw [Grammar.rule, hsequence, Option.getD_some] at hnull
  rw [Grammar.rule, hsequence', Option.getD_some]
  exact hmarks.sequence (rule.body.alike_record (fun name => rel_ruleId? (hfind name)) _ _) hnull

/-- **Whether a rule is nullable does not depend on the order of the rules.** -/
theorem isNullable_eq_of_perm (hperm : rules.Perm rules') (hnames : (rules.map (·.name)).Nodup)
    (hsame : SameRule rules rules' r r') :
    (recordRules rules').1.isNullable r' = (recordRules rules).1.isNullable r := by
  have hfind := find?_eq_of_perm hperm hnames
  obtain ⟨rule, hrule, hrule'⟩ := hsame
  rw [Bool.eq_iff_iff]
  exact ⟨isNullable_of_sameRule (fun name => (hfind name).symm) ⟨rule, hrule', hrule⟩,
    isNullable_of_sameRule hfind ⟨rule, hrule, hrule'⟩⟩

end

/-! ## The least marks -/

namespace Grammar

variable {g : Grammar}

/-- The nullable rules are among all marks that are closed. -/
theorem marked_of_isNullable {marked : RuleId → Bool}
    (hclosed : ∀ r < g.size, sequenceNullable marked (g.rule r) = true → marked r = true)
    {r : RuleId} (h : g.isNullable r = true) : marked r = true := by
  refine forall_nullable (P := fun r => marked r = true) (fun l hl r hr hnull => ?_) h
  exact hclosed r hr (sequenceNullable_mono (fun q hq => hl q (List.contains_iff_mem.mp hq)) hnull)

/-- A rule is nullable by its sequence and no other way. -/
theorem isNullable_eq_sequenceNullable {r : RuleId} (hr : r < g.size) :
    g.isNullable r = sequenceNullable g.isNullable (g.rule r) := by
  refine Bool.eq_iff_iff.mpr ⟨fun h => ?_, isNullable_of_sequenceNullable hr⟩
  refine (forall_nullable (P := fun r => r < g.size ∧
    sequenceNullable g.isNullable (g.rule r) = true) (fun l hl r hr hnull => ⟨hr, ?_⟩) h).2
  refine sequenceNullable_mono (fun q hq => ?_) hnull
  have hq := hl q (List.contains_iff_mem.mp hq)
  exact isNullable_of_sequenceNullable hq.1 hq.2

end Grammar

/--
**The nullable rules are the least marks**, for every grammar that is recorded.

The sweeps come to an end by themselves. A rule is marked in the end if and only if it derives the
empty word; these marks are closed, and among all others that are. In another order of the rules the
same rules are marked; all names are different, or the grammar would have been refused before.
-/
theorem nullableRules_exact {τ : Type} [Inhabited τ] (rules : List (RuleDef τ)) :
    let g := (recordRules rules).1
    (∃ n ≤ g.size, g.nullableRules = g.sweep^[n] [] ∧ g.sweep g.nullableRules = g.nullableRules ∧
      ∀ i < n, g.sweep (g.sweep^[i] []) ≠ g.sweep^[i] []) ∧
    (∀ fits r, g.isNullable r = true ↔ g.Derives fits [.nonterminal r] []) ∧
    (∀ r < g.size, g.isNullable r = sequenceNullable g.isNullable (g.rule r)) ∧
    (∀ marked : RuleId → Bool,
      (∀ r < g.size, sequenceNullable marked (g.rule r) = true → marked r = true) →
        ∀ r, g.isNullable r = true → marked r = true) ∧
    ∀ rules' : List (RuleDef τ), rules.Perm rules' → (rules.map (·.name)).Nodup →
      ∀ r r', SameRule rules rules' r r' → (recordRules rules').1.isNullable r' = g.isNullable r :=
  ⟨(Grammar.RuleSet.nil _).exists_iterate_sweeps (Nat.le_refl _),
    fun _ _ => by rw [Grammar.derives_nil_iff, sequenceNullable, Production.isNullable,
      sequenceNullable, Bool.and_true],
    fun _ => Grammar.isNullable_eq_sequenceNullable,
    fun _ hclosed _ => Grammar.marked_of_isNullable hclosed,
    fun _ hperm hnames _ _ => isNullable_eq_of_perm hperm hnames⟩

end Palette
