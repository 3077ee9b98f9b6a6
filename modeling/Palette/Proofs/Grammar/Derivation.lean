import Palette.Grammar.Basic

/-!
# What a grammar derives

A sequence of productions derives the words of token kinds that can be read along it: a token
for every terminal, a word of the rule for every nonterminal, and for a decision as many words of
its body, or of one of its alternatives, as its kind asks for.

Which token will do for a terminal is a parameter. With the equality of kinds the words are made
of the kinds of the grammar, and with a vocabulary's `fits` they are made of those of the tokens.
-/

namespace Palette

namespace Grammar

/-- The sequence of a rule of the grammar is found by its index. -/
theorem getElem?_rules {g : Grammar} {r : RuleId} (hr : r < g.size) :
    g.rules[r]? = some (g.rule r) := by
  rw [rule, List.getElem?_eq_getElem hr, Option.getD_some]

/-- The words of a sequence of productions; `fits actual expected` tells whether a token of one
kind will do for a terminal of the other. -/
inductive Derives (g : Grammar) (fits : TokenKind → TokenKind → Bool) :
    List Production → List TokenKind → Prop where
  | nil : Derives g fits [] []
  | terminal {kind k ps w} (fit : fits k kind = true) (rest : Derives g fits ps w) :
    Derives g fits (.terminal kind :: ps) (k :: w)
  | nonterminal {r body ps u w} (rule : g.rules[r]? = some body) (inner : Derives g fits body u)
      (rest : Derives g fits ps w) :
    Derives g fits (.nonterminal r :: ps) (u ++ w)
  | optionNone {number key bodies ps w} (rest : Derives g fits ps w) :
    Derives g fits (.decision number key .option bodies :: ps) w
  | optionSome {number key bodies ps u w} (inner : Derives g fits (bodyOf bodies) u)
      (rest : Derives g fits ps w) :
    Derives g fits (.decision number key .option bodies :: ps) (u ++ w)
  | manyDone {number key bodies ps w} (rest : Derives g fits ps w) :
    Derives g fits (.decision number key .many bodies :: ps) w
  | manyMore {number key bodies ps u w} (inner : Derives g fits (bodyOf bodies) u)
      (rest : Derives g fits (.decision number key .many bodies :: ps) w) :
    Derives g fits (.decision number key .many bodies :: ps) (u ++ w)
  | atLeastOne {number key bodies ps u w} (inner : Derives g fits (bodyOf bodies) u)
      (rest : Derives g fits (.decision number key .many bodies :: ps) w) :
    Derives g fits (.decision number key .atLeastOne bodies :: ps) (u ++ w)
  | alternation {number key alternatives sequence ps u w} (chosen : sequence ∈ alternatives)
      (inner : Derives g fits sequence u) (rest : Derives g fits ps w) :
    Derives g fits (.decision number key .alternation alternatives :: ps) (u ++ w)

namespace Derives

variable {g : Grammar} {fits : TokenKind → TokenKind → Bool} {ps qs body : List Production}
  {u w : List TokenKind}

/-- One sequence behind another derives their words one behind the other. -/
theorem append (h : g.Derives fits ps u) (h' : g.Derives fits qs w) :
    g.Derives fits (ps ++ qs) (u ++ w) := by
  induction h with
  | nil => exact h'
  | terminal fit _ ih => exact .terminal fit ih
  | nonterminal rule inner _ _ ih =>
    rw [List.append_assoc]
    exact .nonterminal rule inner ih
  | optionNone _ ih => exact .optionNone ih
  | optionSome inner _ _ ih =>
    rw [List.append_assoc]
    exact .optionSome inner ih
  | manyDone _ ih => exact .manyDone ih
  | manyMore inner _ _ ih =>
    rw [List.append_assoc]
    exact .manyMore inner ih
  | atLeastOne inner _ _ ih =>
    rw [List.append_assoc]
    exact .atLeastOne inner ih
  | alternation chosen inner _ _ ih =>
    rw [List.append_assoc]
    exact .alternation chosen inner ih

/-- What matters is only what the kinds of the word fit. -/
theorem imp_fits {fits' : TokenKind → TokenKind → Bool} (h : g.Derives fits ps w)
    (himp : ∀ k ∈ w, ∀ kind, fits k kind = true → fits' k kind = true) : g.Derives fits' ps w := by
  induction h with
  | nil => exact .nil
  | terminal fit _ ih =>
    rw [List.forall_mem_cons] at himp
    exact .terminal (himp.1 _ fit) (ih himp.2)
  | nonterminal rule _ _ ihinner ih =>
    rw [List.forall_mem_append] at himp
    exact .nonterminal rule (ihinner himp.1) (ih himp.2)
  | optionNone _ ih => exact .optionNone (ih himp)
  | optionSome _ _ ihinner ih =>
    rw [List.forall_mem_append] at himp
    exact .optionSome (ihinner himp.1) (ih himp.2)
  | manyDone _ ih => exact .manyDone (ih himp)
  | manyMore _ _ ihinner ih =>
    rw [List.forall_mem_append] at himp
    exact .manyMore (ihinner himp.1) (ih himp.2)
  | atLeastOne _ _ ihinner ih =>
    rw [List.forall_mem_append] at himp
    exact .atLeastOne (ihinner himp.1) (ih himp.2)
  | alternation chosen _ _ ihinner ih =>
    rw [List.forall_mem_append] at himp
    exact .alternation chosen (ihinner himp.1) (ih himp.2)

/-- A rule derives what its sequence does. -/
theorem of_rule {r : RuleId} (hr : r < g.size) (h : g.Derives fits (g.rule r) u) :
    g.Derives fits [.nonterminal r] u :=
  List.append_nil u ▸ .nonterminal (getElem?_rules hr) h .nil

end Derives

end Grammar

end Palette
