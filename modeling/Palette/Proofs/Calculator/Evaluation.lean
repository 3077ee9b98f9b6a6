import Palette.Proofs.Calculator.Analysis
import Palette.Proofs.Calculator.Reading
import Palette.Proofs.Grammar.Composition

/-!
# Evaluating what can be read

Where the tokens ahead can be read as a phrase, and what is behind them does not go on with it, the
rule of the phrase comes to the value of the reading and leaves what is behind. The next token
decides everything: which alternative of a signed number or of a primary expression it is, whether
there is an exponent, and whether a chain goes on.

Main statement: `Reads.evaluates`.
-/

namespace Palette.Calculator

open Body

/-! ## Decisions -/

/-- The recognizer has the vocabulary and the tables of the calculator, and tokens to match. -/
structure Reader (input : RecognizerInput) : Prop where
  vocabulary : Calculator.vocabulary = .ok input.vocabulary
  lookahead : input.lookahead = tables
  tokens : input.Matchable

namespace Reader

variable {input : RecognizerInput} {s : Recognition} {t : Token} {rest : List Token}
  (h : Reader input)
include h

theorem fitsAhead_iff {expected : TokenKind} :
    input.fitsAhead s 1 expected = true ↔ (input.ahead s 1).kind ∈ members expected :=
  fits_iff h.vocabulary (h.tokens.kind_ahead s 1)

/-- The table of the rule that is being run. -/
theorem table?_eq {r : RuleId} {table : DecisionTable} (hs : s.stack.head? = some r)
    (htable : tables.table? ⟨r, 0⟩ = some table) : input.table? s 0 = some table := by
  rw [RecognizerInput.table?, hs, h.lookahead]
  exact htable

/-- The next token decides between alternatives. -/
theorem predict_eq {kinds : List (List TokenKind)} {i : Nat}
    (hs : input.remaining s = t :: rest) (hi : i < kinds.length)
    (honly : ∀ j < kinds.length, (∃ kind ∈ kinds.getD j [], t.kind ∈ members kind) ↔ j = i) :
    input.predict s (oneToken kinds) = some i := by
  refine RecognizerInput.predict_oneToken hi fun j hj => ?_
  simpa only [h.fitsAhead_iff, RecognizerInput.ahead_of_remaining hs] using honly j hj

theorem enters_eq_true {kind : TokenKind} (hs : input.remaining s = t :: rest)
    (ht : t.kind ∈ members kind) : input.enters s (oneToken [[kind]]) = true := by
  rwa [RecognizerInput.enters_oneToken, h.fitsAhead_iff, RecognizerInput.ahead_of_remaining hs]

/-- Where a phrase stops, a body that it would go on with is not entered. -/
theorem enters_eq_false {phrase : Phrase} {kind : TokenKind}
    (hstops : phrase.Stops (input.remaining s)) (hmem : members kind ⊆ phrase.continuing)
    (hend : TokenKind.endOfInput ∉ members kind) :
    input.enters s (oneToken [[kind]]) = false := by
  rw [RecognizerInput.enters_oneToken, Bool.eq_false_iff, ne_eq, h.fitsAhead_iff]
  cases hs : input.remaining s with
  | nil => rwa [RecognizerInput.kind_ahead_of_remaining_nil hs]
  | cons t rest =>
    rw [hs] at hstops
    rw [RecognizerInput.ahead_of_remaining hs]
    exact fun ht => hstops (hmem ht)

theorem take {τ : Type} (rules : List (RuleDef τ)) (kind : TokenKind)
    (hs : input.remaining s = t :: rest) (ht : t.kind ∈ members kind) :
    (Body.take kind : Body τ Token).ComesTo rules input s t (s.advance 1) := by
  have hahead := RecognizerInput.ahead_of_remaining hs
  have htake : (Body.take kind : Body τ Token).ComesTo rules input s (input.ahead s 1) _ :=
    .take (h.fitsAhead_iff.mpr (hahead ▸ ht))
  rwa [hahead] at htake

end Reader

/-! ## Chains -/

namespace Level

/-- The category of the signs of the level. -/
def category : Level → TokenKind
  | sum => additive
  | product => multiplicative

/-- The rule of the chains of the level. -/
def rule : Level → RuleId
  | sum => 1
  | product => 2

/-- The rule of the operands of the level. -/
def operandRule : Level → RuleId
  | sum => 2
  | product => 3

/-- The name of the rule of the operands. -/
def operandName : Level → String
  | sum => "multiplicative"
  | product => "unary"

theorem table?_tables (level : Level) :
    tables.table? ⟨level.rule, 0⟩ = some (oneToken [[level.category]]) := by
  cases level <;> rfl

theorem members_category (level : Level) : members level.category ⊆ level.continuing := by
  cases level <;> decide

theorem endOfInput_notMem (level : Level) : .endOfInput ∉ members level.category := by
  cases level <;> decide

end Level

theorem Operator.sign_mem (op : Operator) : op.sign ∈ members op.level.category := by
  cases op <;> decide

section

variable {α : Type} [Inhabited α] (a : Arithmetic α)

namespace Level

/-- What the sign at hand does to two numbers. -/
def combine : Level → Token → α → α → α
  | sum => a.addOrSubtract
  | product => a.multiplyOrDivide

/-- One more operand behind those so far. -/
def round (level : Level) (value : α) : Body α α := do
  let op ← Body.take level.category
  let operand ← call level.operandName
  return level.combine a op value operand

theorem exists_rule (level : Level) : ∃ rule, (rules a)[level.rule]? = some rule ∧
    rule.body = (do
      let first ← call level.operandName
      loop 0 first (level.round a)) := by
  cases level <;> exact ⟨_, rfl, rfl⟩

theorem ruleId?_operandName (level : Level) :
    ruleId? (rules a) level.operandName = some level.operandRule := by
  cases level <;> rfl

end Level

omit [Inhabited α] in
theorem Operator.combine_eq {op : Operator} {sign : Token} (hsign : sign.kind = op.sign)
    (x y : α) : op.level.combine a sign x y = op.apply a x y := by
  cases op <;>
    simp only [Level.combine, level, Arithmetic.addOrSubtract, Arithmetic.multiplyOrDivide,
      hsign] <;> rfl

variable {input : RecognizerInput} {s t u : Recognition} {first : Token} {rest : List Token}
  {x y : α} (h : Reader input)

theorem comesTo_chain {level : Level}
    (hfirst : RuleComesTo (rules a) input level.operandRule (s.enter level.rule) x t)
    (hmore : RoundsComeTo (rules a) input 0 (level.round a) x t y (u.enter level.rule)) :
    RuleComesTo (rules a) input level.rule s y u := by
  obtain ⟨rule, hrule, hbody⟩ := level.exists_rule a
  refine .of_body hrule ?_
  rw [hbody]
  exact (ComesTo.call (level.ruleId?_operandName a) hfirst).bind (.loop hmore)

include h

theorem roundsComeTo_stop {level : Level} (hstack : s.stack.head? = some level.rule)
    (hstops : (Phrase.chain level).Stops (input.remaining s)) :
    RoundsComeTo (rules a) input 0 (level.round a) x s x s :=
  .stop (h.table?_eq hstack level.table?_tables)
    (h.enters_eq_false hstops level.members_category level.endOfInput_notMem)

theorem roundsComeTo_step {op : Operator} {sign : Token}
    (hstack : s.stack.head? = some op.level.rule) (hs : input.remaining s = sign :: rest)
    (hsign : sign.kind = op.sign)
    (hoperand : RuleComesTo (rules a) input op.level.operandRule (s.advance 1) y t)
    (hmoved : s.position < t.position) {z : α}
    (hmore : RoundsComeTo (rules a) input 0 (op.level.round a) (op.apply a x y) t z u) :
    RoundsComeTo (rules a) input 0 (op.level.round a) x s z u := by
  have hmem := hsign ▸ op.sign_mem
  refine .step (h.table?_eq hstack op.level.table?_tables) (h.enters_eq_true hs hmem) ?_ hmoved.ne'
    hmore
  rw [← Operator.combine_eq a hsign]
  exact (h.take _ _ hs hmem).bind
    ((ComesTo.call (op.level.ruleId?_operandName a) hoperand).bind (.pure _ _))

/-! ## Signed numbers and powers -/

omit h in
theorem getElem?_unary : (rules a)[3]? = some (unaryRule a) := rfl

omit h in
theorem getElem?_power : (rules a)[4]? = some (powerRule a) := rfl

theorem comesTo_negate {sign : Token} (hs : input.remaining s = sign :: rest)
    (hsign : sign.kind = minus)
    (hoperand : RuleComesTo (rules a) input 3 ((s.enter 3).advance 1) x (t.enter 3)) :
    RuleComesTo (rules a) input 3 s (a.negate x) t := by
  have hpredict : input.predict (s.enter 3) (oneToken signedKinds) = some 0 :=
    h.predict_eq hs (by decide) (by rw [hsign]; decide)
  refine .of_body (getElem?_unary a) (.oneOf (h.table?_eq rfl rfl) hpredict rfl ?_)
  have htake := h.take (s := s.enter 3) (rules a) minus hs (by rw [hsign]; decide)
  exact htake.bind ((ComesTo.call rfl hoperand).bind (.pure _ _))

theorem comesTo_unsigned {l : List Token} {e : Expression} (hpower : Reads .power l e)
    (hs : input.remaining s = l ++ rest)
    (h4 : RuleComesTo (rules a) input 4 (s.enter 3) x (t.enter 3)) :
    RuleComesTo (rules a) input 3 s x t := by
  obtain ⟨first, l', rfl, hfirst⟩ := hpower.exists_cons_of_power
  have hpredict : input.predict (s.enter 3) (oneToken signedKinds) = some 1 := by
    refine h.predict_eq hs (by decide) ?_
    simp only [List.mem_cons, List.not_mem_nil, or_false] at hfirst
    rcases hfirst with hfirst | hfirst | hfirst <;> (rw [hfirst]; decide)
  exact .of_body (getElem?_unary a)
    (.oneOf (h.table?_eq rfl rfl) hpredict rfl (.call rfl h4))

theorem comesTo_base (hbase : RuleComesTo (rules a) input 5 (s.enter 4) x (t.enter 4))
    (hstops : Phrase.power.Stops (input.remaining t)) :
    RuleComesTo (rules a) input 4 s x t := by
  have henters : input.enters (t.enter 4) (oneToken [[caret]]) = false :=
    h.enters_eq_false hstops (by decide) (by decide)
  exact .of_body (getElem?_power a) ((ComesTo.call rfl hbase).bind
    ((ComesTo.perhaps_none (h.table?_eq rfl rfl) henters).bind (.pure _ _)))

theorem comesTo_raise {sign : Token}
    (hbase : RuleComesTo (rules a) input 5 (s.enter 4) x (t.enter 4))
    (ht : input.remaining t = sign :: rest) (hsign : sign.kind = caret)
    (hexponent : RuleComesTo (rules a) input 3 ((t.enter 4).advance 1) y (u.enter 4)) :
    RuleComesTo (rules a) input 4 s (a.power x y) u := by
  have hmem : sign.kind ∈ members caret := by rw [hsign]; decide
  have henters : input.enters (t.enter 4) (oneToken [[caret]]) = true :=
    h.enters_eq_true ht hmem
  have htake := h.take (s := t.enter 4) (rules a) caret ht hmem
  exact .of_body (getElem?_power a) ((ComesTo.call rfl hbase).bind
    ((ComesTo.perhaps_some (h.table?_eq rfl rfl) henters
      (htake.bind (.call rfl hexponent))).bind (.pure _ _)))

/-! ## Primary expressions -/

omit h in
theorem getElem?_primary : (rules a)[5]? = some (primaryRule a) := rfl

theorem comesTo_literal (hs : input.remaining s = first :: rest) (hfirst : first.kind = number) :
    RuleComesTo (rules a) input 5 s (a.literal first.image) (s.advance 1) := by
  have hpredict : input.predict (s.enter 5) (oneToken primaryKinds) = some 0 :=
    h.predict_eq hs (by decide) (by rw [hfirst]; decide)
  have htake := h.take (s := s.enter 5) (rules a) number hs (by rw [hfirst]; decide)
  exact .of_body (getElem?_primary a)
    (.oneOf (h.table?_eq rfl rfl) hpredict rfl (htake.bind (.pure _ _)))

theorem comesTo_constant (hs : input.remaining s = first :: rest)
    (hfirst : first.kind = constant) :
    RuleComesTo (rules a) input 5 s (a.constant first.image) (s.advance 1) := by
  have hpredict : input.predict (s.enter 5) (oneToken primaryKinds) = some 1 :=
    h.predict_eq hs (by decide) (by rw [hfirst]; decide)
  have htake := h.take (s := s.enter 5) (rules a) constant hs (by rw [hfirst]; decide)
  exact .of_body (getElem?_primary a)
    (.oneOf (h.table?_eq rfl rfl) hpredict rfl (htake.bind (.pure _ _)))

omit h in
theorem getElem?_expression : (rules a)[0]? = some expressionRule := rfl

omit h in
theorem comesTo_expression (h1 : RuleComesTo (rules a) input 1 (s.enter 0) x (t.enter 0)) :
    RuleComesTo (rules a) input 0 s x t :=
  .of_body (getElem?_expression a) (.call rfl h1)

theorem comesTo_group {last : Token} (hs : input.remaining s = first :: rest)
    (hfirst : first.kind = openParen)
    (hinner : RuleComesTo (rules a) input 0 ((s.enter 5).advance 1) x (t.enter 5))
    {rest' : List Token} (ht : input.remaining t = last :: rest') (hlast : last.kind = closeParen) :
    RuleComesTo (rules a) input 5 s x (t.advance 1) := by
  have hpredict : input.predict (s.enter 5) (oneToken primaryKinds) = some 2 :=
    h.predict_eq hs (by decide) (by rw [hfirst]; decide)
  have hopen := h.take (s := s.enter 5) (rules a) openParen hs (by rw [hfirst]; decide)
  have hclose := h.take (s := t.enter 5) (rules a) closeParen ht
    (by rw [hlast]; decide)
  exact .of_body (getElem?_primary a) (.oneOf (h.table?_eq rfl rfl) hpredict rfl
    (hopen.bind ((ComesTo.call rfl hinner).bind (hclose.bind (.pure _ _)))))

/-! ## Readings -/

/-- From one state to the other, the phrase is evaluated. -/
def Phrase.Evaluates (input : RecognizerInput) :
    Phrase → Recognition → Expression → Recognition → Prop
  | chain level, s, e, t => RuleComesTo (rules a) input level.rule s (e.value a) t
  | more level left, s, e, t => s.stack.head? = some level.rule →
    RoundsComeTo (rules a) input 0 (level.round a) (left.value a) s (e.value a) t
  | signed, s, e, t => RuleComesTo (rules a) input 3 s (e.value a) t
  | power, s, e, t => RuleComesTo (rules a) input 4 s (e.value a) t
  | primary, s, e, t => RuleComesTo (rules a) input 5 s (e.value a) t

omit h in
theorem Level.evaluates_operand {a : Arithmetic α} {level : Level} {e : Expression}
    (h : level.operand.Evaluates a input s e t) :
    RuleComesTo (rules a) input level.operandRule s (e.value a) t := by
  cases level <;> exact h

/-- **What can be read is evaluated.** -/
theorem Reads.evaluates {phrase : Phrase} {l : List Token} {e : Expression}
    (hreads : Reads phrase l e) (hs : input.remaining s = l ++ rest)
    (hrest : phrase.Stops rest) : phrase.Evaluates a input s e (s.advance l.length) := by
  -- By induction on the reading: `rest` grows by what the rule still expects behind the part at
  -- hand, and the part stops there because that is the next token.
  induction hreads generalizing s rest with
  | @chain level l m x y first more ihfirst ihmore =>
    rw [List.append_assoc] at hs
    rw [Recognition.advance_append]
    have hinside : input.remaining (s.enter level.rule) = l ++ (m ++ rest) := hs
    exact comesTo_chain a
      (Level.evaluates_operand (ihfirst hinside (more.stops_operand hrest)))
      (ihmore (RecognizerInput.remaining_advance hinside) hrest rfl)
  | @done level x =>
    intro hstack
    exact roundsComeTo_stop a h hstack (hs ▸ hrest)
  | @join level op sign l m x y z hlevel hsign operand more ihoperand ihmore =>
    subst hlevel
    intro hstack
    rw [List.cons_append, List.append_assoc] at hs
    rw [Recognition.advance_cons, Recognition.advance_append]
    have hinside := RecognizerInput.remaining_advance_one hs
    refine roundsComeTo_step a h hstack hs hsign
      (Level.evaluates_operand (ihoperand hinside (more.stops_operand hrest))) ?_
      (ihmore (RecognizerInput.remaining_advance hinside) hrest hstack)
    simp only [Recognition.advance]
    omega
  | @negate sign l x hsign operand ih =>
    rw [Recognition.advance_cons]
    have hinside : input.remaining (s.enter 3) = sign :: (l ++ rest) := hs
    exact comesTo_negate a h hs hsign
      (ih (RecognizerInput.remaining_advance_one hinside) hrest)
  | @unsigned l x power ih =>
    have hinside : input.remaining (s.enter 3) = l ++ rest := hs
    exact comesTo_unsigned a h power hs (ih hinside hrest)
  | @base l x primary ih =>
    have hinside : input.remaining (s.enter 4) = l ++ rest := hs
    exact comesTo_base a h (ih hinside (Phrase.stops_primary rest))
      (RecognizerInput.remaining_advance hs ▸ hrest)
  | @raise sign l m x y base hsign exponent ihbase ihexponent =>
    rw [List.append_assoc] at hs
    rw [Recognition.advance_append, Recognition.advance_cons]
    have hinside : input.remaining (s.enter 4) = l ++ (sign :: m ++ rest) := hs
    have hbehind := RecognizerInput.remaining_advance hinside
    exact comesTo_raise (t := s.advance l.length) a h (ihbase hinside (Phrase.stops_primary _))
      (RecognizerInput.remaining_advance hs) hsign
      (ihexponent (RecognizerInput.remaining_advance_one hbehind) hrest)
  | literal ht => exact comesTo_literal a h hs ht
  | constant ht => exact comesTo_constant a h hs ht
  | @group opening closing l x hopening inner hclosing ih =>
    rw [List.cons_append, List.append_assoc] at hs
    rw [Recognition.advance_cons, Recognition.advance_append]
    have hinside : input.remaining ((s.enter 5).advance 1) = l ++ ([closing] ++ rest) :=
      RecognizerInput.remaining_advance_one hs
    have hinner := ih (s := ((s.enter 5).advance 1).enter 0) hinside
      (Phrase.stops_closeParen hclosing rest)
    exact comesTo_group a h hs hopening (comesTo_expression a hinner)
      (RecognizerInput.remaining_advance (RecognizerInput.remaining_advance_one hs)) hclosing

end

end Palette.Calculator
