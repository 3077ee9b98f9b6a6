import Mathlib.Tactic.IntervalCases
import Palette.Calculator.Rules
import Palette.Proofs.Grammar.Depth
import Palette.Proofs.Vocabulary.Definitions

/-!
# The analysis of the calculator

The rules of the calculator are static, so what is recorded of them is their grammar. No rule is
left recursive, and no token fits the first kinds of two alternatives, so one token of lookahead is
enough for the analysis to succeed.

Main statements: `fits_iff` and `accepted`.
-/

namespace Palette.Calculator

open Body

/-! ## What fits -/

/-- The kinds that the lexer looks for. -/
def concreteKinds : List TokenKind :=
  [plus, minus, star, slash, caret, openParen, closeParen, number, constant, comment, whitespace]

/-- The kinds of the tokens that will do for a kind. -/
def members (expected : TokenKind) : List TokenKind :=
  if expected = additive then [plus, minus]
  else if expected = multiplicative then [star, slash]
  else [expected]

/-- Signs belong to their category. -/
theorem categories_of_kind : ∀ category ∈ [additive, multiplicative],
    ∀ kind ∈ .endOfInput :: concreteKinds, (kind == category ||
      (tokenDefs[kind.index]?).any (·.categories.contains category)) = true ↔
        kind ∈ members category := by
  decide

/-- There are no other categories. -/
theorem mem_of_mem_categories :
    ∀ d ∈ tokenDefs, ∀ c ∈ d.categories, c ∈ [additive, multiplicative] := by
  decide

section

variable {v : Vocabulary} (hv : vocabulary = .ok v) {kind expected : TokenKind}
include hv

theorem mem_concreteKinds (hkind : kind ∈ v.matchable) : kind ∈ concreteKinds := by
  obtain ⟨d, hd, hpattern⟩ := Vocabulary.exists_def_of_mem_matchable hv hkind
  obtain ⟨i⟩ := kind
  have hlt : i < 13 := (List.getElem?_eq_some_iff.mp hd).1
  interval_cases i
  · cases hd
    cases hpattern
  · cases hd
    cases hpattern
  all_goals decide

/-- **Signs fit their category, and apart from that a kind fits only itself**, among the kinds that
tokens can have. -/
theorem fits_iff (hkind : kind ∈ v.matchable ∨ kind = .endOfInput) :
    v.fits kind expected = true ↔ kind ∈ members expected := by
  have hmem : kind ∈ .endOfInput :: concreteKinds := by
    rcases hkind with hkind | rfl
    · exact List.mem_cons_of_mem _ (mem_concreteKinds hv hkind)
    · exact List.mem_cons_self
  rw [Vocabulary.fits_ofDefs hv]
  by_cases hcategory : expected ∈ [additive, multiplicative]
  · exact categories_of_kind expected hcategory kind hmem
  · have hnone : ¬(tokenDefs[kind.index]?).any (·.categories.contains expected) := by
      intro hany
      obtain ⟨d, hd, hcontains⟩ := (Option.any_eq_true _ _).mp hany
      exact hcategory (mem_of_mem_categories d (List.mem_of_getElem? hd) expected
        (List.contains_iff_mem.mp hcontains))
    simp only [List.mem_cons, List.not_mem_nil, or_false, not_or] at hcategory
    rw [Bool.or_eq_true, or_iff_left hnone, members, if_neg hcategory.1, if_neg hcategory.2,
      List.mem_singleton, beq_iff_eq]

/-- Kinds that no token fits both do not overlap. -/
theorem overlaps_eq_false {a b : TokenKind} (hne : a ≠ b)
    (hdisjoint : ∀ kind ∈ members a, kind ∉ members b) : v.overlaps a b = false := by
  rw [Vocabulary.overlaps, Bool.or_eq_false_iff, List.any_eq_false]
  refine ⟨beq_false_of_ne hne, fun kind hkind hboth => ?_⟩
  rw [Bool.and_eq_true, fits_iff hv (.inl hkind), fits_iff hv (.inl hkind)] at hboth
  exact hdisjoint kind hboth.1 hboth.2

end

/-! ## The grammar -/

/-- What is recorded of the rules. -/
def grammar : Grammar where
  names := ["expression", "additive", "multiplicative", "unary", "power", "primary"]
  rules :=
    [[.nonterminal 1],
      [.nonterminal 2, .decision 0 ⟨1, 0⟩ .many [[.terminal additive, .nonterminal 2]]],
      [.nonterminal 3, .decision 1 ⟨2, 0⟩ .many [[.terminal multiplicative, .nonterminal 3]]],
      [.decision 2 ⟨3, 0⟩ .alternation [[.terminal minus, .nonterminal 3], [.nonterminal 4]]],
      [.nonterminal 5, .decision 3 ⟨4, 0⟩ .option [[.terminal caret, .nonterminal 3]]],
      [.decision 4 ⟨5, 0⟩ .alternation
        [[.terminal number], [.terminal constant],
          [.terminal openParen, .nonterminal 0, .terminal closeParen]]]]
  decisions :=
    [⟨0, ⟨1, 0⟩, .many, [[.terminal additive, .nonterminal 2]]⟩,
      ⟨1, ⟨2, 0⟩, .many, [[.terminal multiplicative, .nonterminal 3]]⟩,
      ⟨2, ⟨3, 0⟩, .alternation, [[.terminal minus, .nonterminal 3], [.nonterminal 4]]⟩,
      ⟨3, ⟨4, 0⟩, .option, [[.terminal caret, .nonterminal 3]]⟩,
      ⟨4, ⟨5, 0⟩, .alternation,
        [[.terminal number], [.terminal constant],
          [.terminal openParen, .nonterminal 0, .terminal closeParen]]⟩]

/-- The first kinds of the alternatives of a signed number. -/
def signedKinds : List (List TokenKind) := [[minus], [openParen, number, constant]]

/-- The first kinds of the alternatives of a primary expression. -/
def primaryKinds : List (List TokenKind) := [[number], [constant], [openParen]]

/-- The tables of all decisions for one token of lookahead. -/
def tables : Lookahead :=
  [(⟨1, 0⟩, oneToken [[additive]]), (⟨2, 0⟩, oneToken [[multiplicative]]),
    (⟨3, 0⟩, oneToken signedKinds), (⟨4, 0⟩, oneToken [[caret]]), (⟨5, 0⟩, oneToken primaryKinds)]

theorem leadTable_grammar : grammar.leadTable = #[[1], [2], [3], [4], [5], []] := by
  decide +kernel

theorem leftRecursion_grammar : grammar.leftRecursion = [] := by
  simp only [Grammar.leftRecursion, leadTable_grammar]
  cbv

theorem lookahead?_grammar (v : Vocabulary) :
    grammar.lookahead? v 1 = some (tables, ambiguities grammar v ⟨3, 0⟩ (oneToken signedKinds) ++
      ambiguities grammar v ⟨5, 0⟩ (oneToken primaryKinds)) := by
  rw [← List.append_nil (ambiguities grammar v ⟨5, 0⟩ _)]
  cbv

/-- Alternatives whose first kinds no token fits both can be told apart. -/
theorem unambiguous_of_members {v : Vocabulary} (hv : vocabulary = .ok v)
    {kinds : List (List TokenKind)}
    (h : kinds.Pairwise fun left right => ∀ a ∈ left, ∀ b ∈ right,
      a ≠ b ∧ ∀ kind ∈ members a, kind ∉ members b) : Unambiguous v (oneToken kinds) :=
  unambiguous_oneToken (h.imp fun hapart a ha b hb =>
    overlaps_eq_false hv (hapart a ha b hb).1 (hapart a ha b hb).2)

/-! ## The parser -/

theorem patternPasses_tokenDefs : ∀ d ∈ tokenDefs, d.patternPasses = true := by
  simp only [tokenDefs, List.forall_mem_cons]
  refine ⟨?_, ?_, ?_, ?_, ?_, ?_, ?_, ?_, ?_, ?_, ?_, ?_, ?_, nofun⟩ <;> cbv

/-- The vocabulary can be defined. -/
theorem exists_vocabulary : ∃ v, vocabulary = .ok v :=
  Vocabulary.exists_ofDefs (by decide +kernel) patternPasses_tokenDefs

/-- Operands with operators between them make the same calls whatever is computed. -/
theorem makes_chain {α : Type} {name : String} {kind : TokenKind} (hkind : kind ≠ .endOfInput)
    (combine : Token → α → α → α) :
    (do
      let first ← call name
      loop 0 first fun value => do
        let op ← take kind
        let operand ← call name
        return combine op value operand : Body α α).Makes
      [.subrule name, .many 0 [.consume kind, .subrule name]] := by
  have hround (value : α) : (do
      let op ← take kind
      let operand ← call name
      return combine op value operand : Body α α).Makes [.consume kind, .subrule name] :=
    (Makes.take hkind).bind fun _ => (Makes.call name).bind fun _ => .pure _
  exact (Makes.call name).bind fun _ => .loop _ _ hround

section

variable {α : Type} [Inhabited α]

theorem recordRules_rules (a : Arithmetic α) : recordRules (rules a) = (grammar, []) := by cbv

/-- The calculator, not analysed yet. -/
def definition (a : Arithmetic α) (v : Vocabulary) : GrammarDef α :=
  { vocabulary := v, rules := rules a }

theorem isStatic_definition (a : Arithmetic α) (v : Vocabulary) : (definition a v).IsStatic := by
  intro rule hrule
  simp only [definition, rules, List.mem_cons, List.not_mem_nil, or_false] at hrule
  rcases hrule with rfl | rfl | rfl | rfl | rfl | rfl
  · exact ⟨_, .call _⟩
  · exact ⟨_, makes_chain (by decide) a.addOrSubtract⟩
  · exact ⟨_, makes_chain (by decide) a.multiplyOrDivide⟩
  · have hminus : (take minus : Body α Token).Makes [.consume minus] := .take (by decide)
    have hnegate := hminus.bind fun _ => (Makes.call "unary").bind fun x => .pure (a.negate x)
    exact ⟨_, .oneOf _ _ (.cons hnegate (.cons (.call _) .nil))⟩
  · have hcaret : (take caret : Body α Token).Makes [.consume caret] := .take (by decide)
    have hexponent := hcaret.bind fun _ => .call "unary"
    exact ⟨_, (Makes.call _).bind fun _ => (hexponent.perhaps 0).bind fun _ => .pure _⟩
  · have hnumber : (take number : Body α Token).Makes [.consume number] := .take (by decide)
    have hconstant : (take constant : Body α Token).Makes [.consume constant] := .take (by decide)
    have hopen : (take openParen : Body α Token).Makes [.consume openParen] := .take (by decide)
    have hclose : (take closeParen : Body α Token).Makes [.consume closeParen] := .take (by decide)
    have hgroup := hopen.bind fun _ => (Makes.call "expression").bind fun x =>
      hclose.bind fun _ => .pure x
    exact ⟨_, .oneOf _ _ (.cons (hnumber.bind fun t => .pure (a.literal t.image))
      (.cons (hconstant.bind fun t => .pure (a.constant t.image)) (.cons hgroup .nil)))⟩

/-- The calculator with one token of lookahead. -/
def oneAhead (a : Arithmetic α) (v : Vocabulary) : Parser α :=
  { vocabulary := v, rules := rules a, lookahead := tables, start := 0,
    config := { ParserConfig.standard with maxLookahead := 1 } }

theorem accepted (a : Arithmetic α) {v : Vocabulary} (hv : vocabulary = .ok v) :
    (definition a v).Accepted { ParserConfig.standard with maxLookahead := 1 } (oneAhead a v) where
  vocabulary := rfl
  rules := rfl
  configured := rfl
  nonempty := List.cons_ne_nil _ _
  distinct := by
    have hnames : duplicates grammar.names = [] := by decide
    exact hnames
  start := rfl
  recorded := by rw [definition, recordRules_rules]
  leftRecursion := by rw [definition, recordRules_rules, leftRecursion_grammar]
  lookahead := by
    rw [definition, recordRules_rules]
    show grammar.lookahead? v 1 = _
    rw [lookahead?_grammar, ambiguities_eq_nil_iff.mpr (unambiguous_of_members hv (by decide)),
      ambiguities_eq_nil_iff.mpr (unambiguous_of_members hv (by decide))]
    rfl

end

end Palette.Calculator
