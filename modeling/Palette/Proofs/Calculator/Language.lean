import Palette.Proofs.Calculator.Evaluation
import Palette.Proofs.Grammar.Interpretation

/-!
# The language of the calculator

Each rule of the calculator stands for the words whose tokens can be read as its phrase. Rule by
rule this takes in what its sequence spells, so all that the grammar derives can be read.

Main statement: `exists_reads_of_derives`.
-/

namespace Palette.Calculator

/-- The phrase of a rule. -/
def phraseOf : RuleId → Phrase
  | 0 | 1 => .chain .sum
  | 2 => .chain .product
  | 3 => .signed
  | 4 => .power
  | _ => .primary

/-- The words whose tokens can be read as the phrase of a rule. -/
def Readable (r : RuleId) (w : List TokenKind) : Prop :=
  ∀ tokens : List Token, tokens.map (·.kind) = w → ∃ x, Reads (phraseOf r) tokens x

/-- Whether a kind is a member of another. -/
def belongs (actual expected : TokenKind) : Bool := (members expected).contains actual

/-! ## Rule by rule -/

theorem eq_of_belongs {kind expected : TokenKind} (h : belongs kind expected = true)
    (hadd : expected ≠ additive) (hmul : expected ≠ multiplicative) : kind = expected := by
  rwa [belongs, List.contains_iff_mem, members, if_neg hadd, if_neg hmul,
    List.mem_singleton] at h

/-- The signs of a level are those of its operators. -/
theorem Level.exists_operator {level : Level} {kind : TokenKind}
    (h : belongs kind level.category = true) :
    ∃ op : Operator, op.level = level ∧ kind = op.sign := by
  have hsigns : ∀ kind ∈ members level.category,
      ∃ op ∈ [Operator.add, .subtract, .multiply, .divide], op.level = level ∧ kind = op.sign := by
    cases level <;> decide
  obtain ⟨op, -, hop⟩ := hsigns kind (List.contains_iff_mem.mp h)
  exact ⟨op, hop⟩

theorem Level.exists_reads_operand {level : Level} {w : List TokenKind} {tokens : List Token}
    (h : Readable level.operandRule w) (htokens : tokens.map (·.kind) = w) :
    ∃ x, Reads level.operand tokens x := by
  cases level <;> exact h tokens htokens

variable {level : Level} {w : List TokenKind} {tokens : List Token}

/-- Rounds of a chain join one operand after the other. -/
theorem exists_reads_more {us : List (List TokenKind)}
    (hus : ∀ u ∈ us, Spells Readable belongs
      [.terminal level.category, .nonterminal level.operandRule] u)
    (htokens : tokens.map (·.kind) = us.flatten) (x : Expression) :
    ∃ y, Reads (.more level x) tokens y := by
  induction us generalizing tokens x with
  | nil =>
    obtain rfl := List.map_eq_nil_iff.mp htokens
    exact ⟨x, .done⟩
  | cons u us ih =>
    rw [List.forall_mem_cons] at hus
    obtain ⟨kind, v, rfl, hkind, hv⟩ := hus.1.exists_terminal
    have hoperand := hv.of_nonterminal
    rw [List.flatten_cons] at htokens
    obtain ⟨sign, behind, rfl, hsign, hbehind⟩ := List.map_eq_cons_iff.mp htokens
    obtain ⟨l, m, rfl, hl, hm⟩ := List.map_eq_append_iff.mp hbehind
    obtain ⟨op, hlevel, hop⟩ := Level.exists_operator hkind
    obtain ⟨y, hy⟩ := Level.exists_reads_operand hoperand hl
    obtain ⟨z, hz⟩ := ih hus.2 hm (.binary op x y)
    exact ⟨z, .join hlevel (hsign.trans hop) hy hz⟩

theorem exists_reads_chain (level : Level) {number : Nat} {key : DecisionKey}
    (h : Spells Readable belongs
      [.nonterminal level.operandRule, .decision number key .many
        [[.terminal level.category, .nonterminal level.operandRule]]] w)
    (htokens : tokens.map (·.kind) = w) : ∃ x, Reads (.chain level) tokens x := by
  obtain ⟨u, v, rfl, hfirst, hv⟩ := h.exists_nonterminal
  obtain ⟨us, rfl, hus⟩ := hv.of_many
  obtain ⟨l, m, rfl, hl, hm⟩ := List.map_eq_append_iff.mp htokens
  obtain ⟨x, hx⟩ := Level.exists_reads_operand hfirst hl
  obtain ⟨y, hy⟩ := exists_reads_more hus hm x
  exact ⟨y, .chain hx hy⟩

theorem readable_signed {number : Nat} {key : DecisionKey}
    (h : Spells Readable belongs [.decision number key .alternation
      [[.terminal minus, .nonterminal 3], [.nonterminal 4]]] w) : Readable 3 w := by
  intro tokens htokens
  obtain ⟨sequence, hmem, hspells⟩ := h.of_alternation
  simp only [List.mem_cons, List.not_mem_nil, or_false] at hmem
  rcases hmem with rfl | rfl
  · obtain ⟨kind, v, rfl, hkind, hv⟩ := hspells.exists_terminal
    obtain ⟨sign, l, rfl, hsign, hl⟩ := List.map_eq_cons_iff.mp htokens
    obtain ⟨x, hx⟩ := hv.of_nonterminal l hl
    exact ⟨_, .negate (hsign.trans (eq_of_belongs hkind (by decide) (by decide))) hx⟩
  · obtain ⟨x, hx⟩ := hspells.of_nonterminal tokens htokens
    exact ⟨x, .unsigned hx⟩

theorem readable_power {number : Nat} {key : DecisionKey}
    (h : Spells Readable belongs [.nonterminal 5, .decision number key .option
      [[.terminal caret, .nonterminal 3]]] w) : Readable 4 w := by
  intro tokens htokens
  obtain ⟨u, v, rfl, hbase, hv⟩ := h.exists_nonterminal
  obtain ⟨l, m, rfl, hl, hm⟩ := List.map_eq_append_iff.mp htokens
  obtain ⟨x, hx⟩ := hbase l hl
  rcases hv.of_option with rfl | hraised
  · obtain rfl := List.map_eq_nil_iff.mp hm
    rw [List.append_nil]
    exact ⟨x, .base hx⟩
  · obtain ⟨kind, v, rfl, hkind, hexponent⟩ := hraised.exists_terminal
    obtain ⟨sign, l', rfl, hsign, hl'⟩ := List.map_eq_cons_iff.mp hm
    obtain ⟨y, hy⟩ := hexponent.of_nonterminal l' hl'
    exact ⟨_, .raise hx (hsign.trans (eq_of_belongs hkind (by decide) (by decide))) hy⟩

theorem readable_primary {n : Nat} {key : DecisionKey}
    (h : Spells Readable belongs [.decision n key .alternation
      [[.terminal number], [.terminal constant],
        [.terminal openParen, .nonterminal 0, .terminal closeParen]]] w) : Readable 5 w := by
  intro tokens htokens
  obtain ⟨sequence, hmem, hspells⟩ := h.of_alternation
  simp only [List.mem_cons, List.not_mem_nil, or_false] at hmem
  rcases hmem with rfl | rfl | rfl
  · obtain ⟨kind, rfl, hkind⟩ := hspells.of_terminal
    obtain ⟨t, rfl, ht⟩ := List.map_eq_singleton_iff.mp htokens
    exact ⟨_, .literal (ht.trans (eq_of_belongs hkind (by decide) (by decide)))⟩
  · obtain ⟨kind, rfl, hkind⟩ := hspells.of_terminal
    obtain ⟨t, rfl, ht⟩ := List.map_eq_singleton_iff.mp htokens
    exact ⟨_, .constant (ht.trans (eq_of_belongs hkind (by decide) (by decide)))⟩
  · obtain ⟨opening, v, rfl, hopening, hv⟩ := hspells.exists_terminal
    obtain ⟨u, v, rfl, hinner, hv⟩ := hv.exists_nonterminal
    obtain ⟨closing, rfl, hclosing⟩ := hv.of_terminal
    obtain ⟨first, behind, rfl, hfirst, hbehind⟩ := List.map_eq_cons_iff.mp htokens
    obtain ⟨l, m, rfl, hl, hm⟩ := List.map_eq_append_iff.mp hbehind
    obtain ⟨last, rfl, hlast⟩ := List.map_eq_singleton_iff.mp hm
    obtain ⟨x, hx⟩ := hinner l hl
    exact ⟨_, .group (hfirst.trans (eq_of_belongs hopening (by decide) (by decide))) hx
      (hlast.trans (eq_of_belongs hclosing (by decide) (by decide)))⟩

/-! ## The whole grammar -/

/-- What the rules spell can be read, rule by rule. -/
theorem readable_of_spells {r : RuleId} {body : List Production}
    (hrule : grammar.rules[r]? = some body) (h : Spells Readable belongs body w) :
    Readable r w := by
  match r with
  | 0 =>
    cases hrule
    exact h.of_nonterminal
  | 1 =>
    cases hrule
    exact fun tokens htokens => exists_reads_chain .sum h htokens
  | 2 =>
    cases hrule
    exact fun tokens htokens => exists_reads_chain .product h htokens
  | 3 =>
    cases hrule
    exact readable_signed h
  | 4 =>
    cases hrule
    exact readable_power h
  | 5 =>
    cases hrule
    exact readable_primary h
  | r + 6 => cases hrule

/-- **What the grammar derives can be read.** -/
theorem exists_reads_of_derives {v : Vocabulary} (hv : vocabulary = .ok v) {tokens : List Token}
    (hkinds : ∀ t ∈ tokens, t.kind ∈ v.matchable)
    (h : grammar.Derives v.fits [.nonterminal 0] (tokens.map (·.kind))) :
    ∃ x, Reads (.chain .sum) tokens x := by
  have hbelongs : grammar.Derives belongs [.nonterminal 0] (tokens.map (·.kind)) := by
    refine h.imp_fits fun kind hkind expected hfits => ?_
    obtain ⟨t, ht, rfl⟩ := List.mem_map.mp hkind
    exact List.contains_iff_mem.mpr ((fits_iff hv (.inl (hkinds t ht))).mp hfits)
  exact (hbelongs.spells fun _ _ _ => readable_of_spells).of_nonterminal tokens rfl

end Palette.Calculator
