import Palette.Proofs.Grammar.Derivation

/-!
# Interpreting the rules of a grammar

When it is said which words each rule stands for, a sequence of productions spells the words that
come of them, without looking into any rule. What is said of the rules is right as soon as it holds
of everything that their own sequences spell: whatever the grammar derives is then spelled. This
takes the place of an induction over derivations for every grammar.

Main statement: `Grammar.Derives.spells`.
-/

namespace Palette

/-- The words of a sequence of productions where those of the rules are given. -/
inductive Spells (words : RuleId → List TokenKind → Prop) (fits : TokenKind → TokenKind → Bool) :
    List Production → List TokenKind → Prop where
  | nil : Spells words fits [] []
  | terminal {kind k ps w} (fit : fits k kind = true) (rest : Spells words fits ps w) :
    Spells words fits (.terminal kind :: ps) (k :: w)
  | nonterminal {r ps u w} (rule : words r u) (rest : Spells words fits ps w) :
    Spells words fits (.nonterminal r :: ps) (u ++ w)
  | optionNone {number key bodies ps w} (rest : Spells words fits ps w) :
    Spells words fits (.decision number key .option bodies :: ps) w
  | optionSome {number key bodies ps u w} (inner : Spells words fits (bodyOf bodies) u)
      (rest : Spells words fits ps w) :
    Spells words fits (.decision number key .option bodies :: ps) (u ++ w)
  | manyDone {number key bodies ps w} (rest : Spells words fits ps w) :
    Spells words fits (.decision number key .many bodies :: ps) w
  | manyMore {number key bodies ps u w} (inner : Spells words fits (bodyOf bodies) u)
      (rest : Spells words fits (.decision number key .many bodies :: ps) w) :
    Spells words fits (.decision number key .many bodies :: ps) (u ++ w)
  | atLeastOne {number key bodies ps u w} (inner : Spells words fits (bodyOf bodies) u)
      (rest : Spells words fits (.decision number key .many bodies :: ps) w) :
    Spells words fits (.decision number key .atLeastOne bodies :: ps) (u ++ w)
  | alternation {number key alternatives sequence ps u w} (chosen : sequence ∈ alternatives)
      (inner : Spells words fits sequence u) (rest : Spells words fits ps w) :
    Spells words fits (.decision number key .alternation alternatives :: ps) (u ++ w)

variable {words : RuleId → List TokenKind → Prop} {fits : TokenKind → TokenKind → Bool}
  {ps : List Production} {w : List TokenKind}

/-- **What is derived is spelled**, if the words of each rule take in all that its own sequence
spells. -/
theorem Grammar.Derives.spells {g : Grammar}
    (hclosed : ∀ (r : RuleId) (body : List Production) (w : List TokenKind),
      g.rules[r]? = some body → Spells words fits body w → words r w)
    (h : g.Derives fits ps w) : Spells words fits ps w := by
  induction h with
  | nil => exact .nil
  | terminal fit _ ih => exact .terminal fit ih
  | nonterminal rule _ _ ihinner ih => exact .nonterminal (hclosed _ _ _ rule ihinner) ih
  | optionNone _ ih => exact .optionNone ih
  | optionSome _ _ ihinner ih => exact .optionSome ihinner ih
  | manyDone _ ih => exact .manyDone ih
  | manyMore _ _ ihinner ih => exact .manyMore ihinner ih
  | atLeastOne _ _ ihinner ih => exact .atLeastOne ihinner ih
  | alternation chosen _ _ ihinner ih => exact .alternation chosen ihinner ih

namespace Spells

theorem exists_terminal {kind : TokenKind} (h : Spells words fits (.terminal kind :: ps) w) :
    ∃ k v, w = k :: v ∧ fits k kind = true ∧ Spells words fits ps v := by
  cases h with
  | terminal fit rest => exact ⟨_, _, rfl, fit, rest⟩

theorem exists_nonterminal {r : RuleId} (h : Spells words fits (.nonterminal r :: ps) w) :
    ∃ u v, w = u ++ v ∧ words r u ∧ Spells words fits ps v := by
  cases h with
  | nonterminal rule rest => exact ⟨_, _, rfl, rule, rest⟩

/-! ### Single productions -/

theorem eq_nil (h : Spells words fits [] w) : w = [] := by
  cases h
  rfl

theorem of_terminal {kind : TokenKind} (h : Spells words fits [.terminal kind] w) :
    ∃ k, w = [k] ∧ fits k kind = true := by
  obtain ⟨k, v, rfl, fit, hnil⟩ := h.exists_terminal
  exact ⟨k, by rw [hnil.eq_nil], fit⟩

theorem of_nonterminal {r : RuleId} (h : Spells words fits [.nonterminal r] w) : words r w := by
  obtain ⟨u, v, rfl, hu, hnil⟩ := h.exists_nonterminal
  rwa [hnil.eq_nil, List.append_nil]

variable {number : Nat} {key : DecisionKey} {bodies : List (List Production)}

theorem of_option (h : Spells words fits [.decision number key .option bodies] w) :
    w = [] ∨ Spells words fits (bodyOf bodies) w := by
  cases h with
  | optionNone rest => exact .inl rest.eq_nil
  | optionSome inner rest =>
    rw [rest.eq_nil, List.append_nil]
    exact .inr inner

theorem of_alternation (h : Spells words fits [.decision number key .alternation bodies] w) :
    ∃ sequence ∈ bodies, Spells words fits sequence w := by
  cases h with
  | alternation chosen inner rest =>
    rw [rest.eq_nil, List.append_nil]
    exact ⟨_, chosen, inner⟩

/-- A repetition spells its rounds one behind the other. -/
theorem of_many (h : Spells words fits [.decision number key .many bodies] w) :
    ∃ us, w = List.flatten us ∧ ∀ u ∈ us, Spells words fits (bodyOf bodies) u := by
  -- The last round is in front of the same repetition again, so the induction is on the spelling.
  generalize hqs : [Production.decision number key .many bodies] = qs at h
  induction h with
  | manyDone rest =>
    cases hqs
    exact ⟨[], rest.eq_nil, nofun⟩
  | manyMore inner _ _ ih =>
    obtain ⟨us, rfl, hus⟩ := ih hqs
    cases hqs
    exact ⟨_ :: us, rfl, List.forall_mem_cons.mpr ⟨inner, hus⟩⟩
  | _ => cases hqs

end Spells

end Palette
