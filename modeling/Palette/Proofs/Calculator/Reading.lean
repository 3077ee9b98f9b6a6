import Palette.Calculator.Rules

/-!
# Readings of arithmetic

An expression is read along the grammar

    E = T ((+|-) T)*
    T = U ((*|/) U)*
    U = - U | P
    P = A (^ U)?
    A = number | constant | ( E )

where the operators of sums and of products are joined from left to right. A reading of tokens is
the tree of such a derivation. There is never more than one: the next token tells how to go on,
provided that what is behind a phrase does not go on with it.

Main statements: `Reads`, which is this grammar, and `Reads.unique`.
-/

namespace Palette.Calculator

/-! ## Expressions -/

/-- The levels of operators that are joined from left to right. -/
inductive Level where
  | sum
  | product
  deriving DecidableEq

/-- The operators of sums and products. -/
inductive Operator where
  | add
  | subtract
  | multiply
  | divide
  deriving DecidableEq

namespace Operator

/-- The level of the operator. -/
def level : Operator → Level
  | add | subtract => .sum
  | multiply | divide => .product

/-- The kind of the sign that is written for the operator. -/
def sign : Operator → TokenKind
  | add => plus
  | subtract => minus
  | multiply => star
  | divide => slash

/-- The operation on numbers. -/
def apply {α : Type} (a : Arithmetic α) : Operator → α → α → α
  | add => a.add
  | subtract => a.subtract
  | multiply => a.multiply
  | divide => a.divide

end Operator

/-- What tokens are read as. -/
inductive Expression where
  | literal (image : String)
  | constant (image : String)
  | group (x : Expression)
  | negate (x : Expression)
  | power (x y : Expression)
  | binary (op : Operator) (x y : Expression)

/-- The value of an expression. -/
def Expression.value {α : Type} (a : Arithmetic α) : Expression → α
  | literal image => a.literal image
  | constant image => a.constant image
  | group x => x.value a
  | negate x => a.negate (x.value a)
  | power x y => a.power (x.value a) (y.value a)
  | binary op x y => op.apply a (x.value a) (y.value a)

/-! ## The grammar -/

/-- The parts of an expression. -/
inductive Phrase where
  /-- Operands that are joined by the operators of a level: E and T. -/
  | chain (level : Level)
  /-- What comes behind the operands that were joined to `left`. -/
  | more (level : Level) (left : Expression)
  /-- A number with any number of signs: U. -/
  | signed
  /-- A number with an exponent, if there is one: P. -/
  | power
  /-- A number, a constant, or an expression in parentheses: A. -/
  | primary

/-- The phrase that the operators of a level join. -/
def Level.operand : Level → Phrase
  | sum => .chain .product
  | product => .signed

/-- The tokens are a phrase, and the expression is what they are read as. -/
inductive Reads : Phrase → List Token → Expression → Prop where
  | chain {level l m x y} (first : Reads level.operand l x) (rest : Reads (.more level x) m y) :
    Reads (.chain level) (l ++ m) y
  | done {level x} : Reads (.more level x) [] x
  | join {level} {op : Operator} {sign : Token} {l m x y z} (hlevel : op.level = level)
      (hsign : sign.kind = op.sign) (operand : Reads level.operand l y)
      (rest : Reads (.more level (.binary op x y)) m z) :
    Reads (.more level x) (sign :: (l ++ m)) z
  | negate {sign : Token} {l x} (hsign : sign.kind = minus) (operand : Reads .signed l x) :
    Reads .signed (sign :: l) (.negate x)
  | unsigned {l x} (power : Reads .power l x) : Reads .signed l x
  | base {l x} (primary : Reads .primary l x) : Reads .power l x
  | raise {sign : Token} {l m x y} (base : Reads .primary l x) (hsign : sign.kind = caret)
      (exponent : Reads .signed m y) : Reads .power (l ++ sign :: m) (.power x y)
  | literal {t : Token} (ht : t.kind = number) : Reads .primary [t] (.literal t.image)
  | constant {t : Token} (ht : t.kind = constant) : Reads .primary [t] (.constant t.image)
  | group {opening closing : Token} {l x} (hopening : opening.kind = openParen)
      (inner : Reads (.chain .sum) l x) (hclosing : closing.kind = closeParen) :
    Reads .primary (opening :: (l ++ [closing])) (.group x)

/-! ## What goes on with a phrase -/

/-- The kinds of the tokens that would go on with a chain. -/
def Level.continuing : Level → List TokenKind
  | sum => [plus, minus, star, slash, caret]
  | product => [star, slash, caret]

/-- The kinds of the tokens that would go on with a phrase. -/
def Phrase.continuing : Phrase → List TokenKind
  | chain level | more level _ => level.continuing
  | signed | power => [caret]
  | primary => []

/-- The phrase cannot go on with the tokens. -/
def Phrase.Stops (phrase : Phrase) : List Token → Prop
  | [] => True
  | t :: _ => t.kind ∉ phrase.continuing

theorem Phrase.Stops.mono {phrase phrase' : Phrase} {rest : List Token} (h : phrase.Stops rest)
    (hsub : phrase'.continuing ⊆ phrase.continuing) : phrase'.Stops rest := by
  cases rest with
  | nil => trivial
  | cons t rest => exact fun ht => h (hsub ht)

/-- Nothing goes on with a primary expression. -/
theorem Phrase.stops_primary (rest : List Token) : primary.Stops rest := by
  cases rest with
  | nil => trivial
  | cons t rest => exact List.not_mem_nil

theorem Level.continuing_operand (level : Level) :
    level.operand.continuing ⊆ level.continuing := by
  cases level <;> decide

/-- A chain goes on with the operators of its level. -/
theorem Phrase.not_stops_sign {level : Level} {op : Operator} {sign : Token}
    (hlevel : op.level = level) (hsign : sign.kind = op.sign) (x : Expression) (rest : List Token) :
    ¬(more level x).Stops (sign :: rest) := by
  have hmem : op.sign ∈ op.level.continuing := by cases op <;> decide
  intro h
  exact h (hsign ▸ hlevel ▸ hmem)

/-- An operand is over where its chain goes on. -/
theorem Operator.sign_notMem (op : Operator) : op.sign ∉ op.level.operand.continuing := by
  cases op <;> decide

theorem Phrase.not_stops_caret {sign : Token} (hsign : sign.kind = caret) (rest : List Token) :
    ¬power.Stops (sign :: rest) := by
  intro h
  exact h (hsign ▸ List.mem_cons_self)

/-- A closing parenthesis goes on with nothing. -/
theorem Phrase.stops_closeParen {closing : Token} (hclosing : closing.kind = closeParen)
    (rest : List Token) : (chain .sum).Stops (closing :: rest) := by
  show closing.kind ∉ _
  rw [hclosing]
  decide

theorem Operator.eq_of_sign_eq {op op' : Operator} (h : op.sign = op'.sign) : op = op' := by
  cases op <;> cases op' <;> first | rfl | (revert h; decide)

namespace Reads

variable {phrase : Phrase} {level : Level} {l m rest : List Token} {x y : Expression}

/-- An operand stops in front of the rest of its chain. -/
theorem stops_operand (h : Reads (.more level x) m y) (hrest : (Phrase.more level x).Stops rest) :
    level.operand.Stops (m ++ rest) := by
  cases h with
  | done => exact hrest.mono level.continuing_operand
  | join hlevel hsign =>
    subst hlevel
    rw [List.cons_append, Phrase.Stops, hsign]
    exact Operator.sign_notMem _

/-- The kinds that a primary expression starts with. -/
theorem exists_cons_of_primary (h : Reads .primary l x) :
    ∃ t l', l = t :: l' ∧ t.kind ∈ [openParen, number, Calculator.constant] := by
  cases h with
  | literal ht => exact ⟨_, _, rfl, by simp [ht]⟩
  | constant ht => exact ⟨_, _, rfl, by simp [ht]⟩
  | group hopening => exact ⟨_, _, rfl, by simp [hopening]⟩

theorem exists_cons_of_power (h : Reads .power l x) :
    ∃ t l', l = t :: l' ∧ t.kind ∈ [openParen, number, Calculator.constant] := by
  cases h with
  | base primary => exact primary.exists_cons_of_primary
  | raise base =>
    obtain ⟨t, l', rfl, ht⟩ := base.exists_cons_of_primary
    exact ⟨t, _, rfl, ht⟩

theorem exists_cons_of_signed (h : Reads .signed l x) : ∃ t l', l = t :: l' := by
  cases h with
  | negate => exact ⟨_, _, rfl⟩
  | unsigned power =>
    obtain ⟨t, l', hl, -⟩ := power.exists_cons_of_power
    exact ⟨t, l', hl⟩

/-! ### The first token decides -/

variable {t : Token}

theorem of_literal (h : Reads .primary (t :: l) x) (ht : t.kind = number) :
    l = [] ∧ x = .literal t.image := by
  cases h with
  | literal => exact ⟨rfl, rfl⟩
  | constant ht' => exact absurd (ht.symm.trans ht') (by decide)
  | group ht' => exact absurd (ht.symm.trans ht') (by decide)

theorem of_constant (h : Reads .primary (t :: l) x) (ht : t.kind = Calculator.constant) :
    l = [] ∧ x = .constant t.image := by
  cases h with
  | literal ht' => exact absurd (ht.symm.trans ht') (by decide)
  | constant => exact ⟨rfl, rfl⟩
  | group ht' => exact absurd (ht.symm.trans ht') (by decide)

theorem of_group (h : Reads .primary (t :: l) x) (ht : t.kind = openParen) :
    ∃ inside closing y, l = inside ++ [closing] ∧ x = .group y ∧ Reads (.chain .sum) inside y ∧
      closing.kind = closeParen := by
  cases h with
  | literal ht' => exact absurd (ht.symm.trans ht') (by decide)
  | constant ht' => exact absurd (ht.symm.trans ht') (by decide)
  | group _ inner hclosing => exact ⟨_, _, _, rfl, rfl, inner, hclosing⟩

theorem of_minus (h : Reads .signed (t :: l) x) (ht : t.kind = minus) :
    ∃ y, x = .negate y ∧ Reads .signed l y := by
  cases h with
  | negate _ operand => exact ⟨_, rfl, operand⟩
  | unsigned power =>
    obtain ⟨t', l', heq, ht'⟩ := power.exists_cons_of_power
    obtain ⟨rfl, -⟩ := List.cons.inj heq
    rw [ht] at ht'
    exact absurd ht' (by decide)

theorem of_ne_minus (h : Reads .signed (t :: l) x) (ht : t.kind ≠ minus) :
    Reads .power (t :: l) x := by
  cases h with
  | negate hsign => exact absurd hsign ht
  | unsigned power => exact power

/-! ### Uniqueness -/

/-- **There is one reading**, also of how far a phrase goes if what is behind it does not go on with
it. -/
theorem eq_of_append_eq {l' rest' : List Token} {x' : Expression} (h : Reads phrase l x)
    (h' : Reads phrase l' x') (heq : l ++ rest = l' ++ rest') (hrest : phrase.Stops rest)
    (hrest' : phrase.Stops rest') : l = l' ∧ x = x' := by
  -- In each case the first token of what is left shows how the other reading goes on. Where it
  -- would have gone on differently, one of the two phrases does not stop in front of its rest.
  induction h generalizing l' rest rest' x' with
  | chain first more ihfirst ihmore =>
    cases h' with
    | chain first' more' =>
      simp only [List.append_assoc] at heq
      obtain ⟨rfl, rfl⟩ := ihfirst first' heq (more.stops_operand hrest)
        (more'.stops_operand hrest')
      obtain ⟨rfl, rfl⟩ := ihmore more' (List.append_cancel_left heq) hrest hrest'
      exact ⟨rfl, rfl⟩
  | done =>
    cases h' with
    | done => exact ⟨rfl, rfl⟩
    | join hlevel hsign =>
      rw [List.nil_append] at heq
      subst heq
      exact absurd hrest (Phrase.not_stops_sign hlevel hsign _ _)
  | join hlevel hsign operand more ihoperand ihmore =>
    cases h' with
    | done =>
      rw [List.nil_append] at heq
      subst heq
      exact absurd hrest' (Phrase.not_stops_sign hlevel hsign _ _)
    | join hlevel' hsign' operand' more' =>
      simp only [List.cons_append, List.append_assoc, List.cons.injEq] at heq
      obtain ⟨rfl, heq⟩ := heq
      obtain rfl := Operator.eq_of_sign_eq (hsign.symm.trans hsign')
      obtain ⟨rfl, rfl⟩ := ihoperand operand' heq (more.stops_operand hrest)
        (more'.stops_operand hrest')
      obtain ⟨rfl, rfl⟩ := ihmore more' (List.append_cancel_left heq) hrest hrest'
      exact ⟨rfl, rfl⟩
  | negate hsign operand ih =>
    obtain ⟨t, l', rfl⟩ := h'.exists_cons_of_signed
    obtain ⟨rfl, htail⟩ := List.cons.inj heq
    obtain ⟨y, rfl, operand'⟩ := h'.of_minus hsign
    obtain ⟨rfl, rfl⟩ := ih operand' htail hrest hrest'
    exact ⟨rfl, rfl⟩
  | unsigned power ih =>
    obtain ⟨t, l, rfl, ht⟩ := power.exists_cons_of_power
    obtain ⟨t', l', rfl⟩ := h'.exists_cons_of_signed
    obtain ⟨rfl, -⟩ := List.cons.inj heq
    have hne : t.kind ≠ minus := by
      intro hminus
      rw [hminus] at ht
      exact absurd ht (by decide)
    exact ih (h'.of_ne_minus hne) heq hrest hrest'
  | base primary ih =>
    cases h' with
    | base primary' => exact ih primary' heq (Phrase.stops_primary _) (Phrase.stops_primary _)
    | raise base' hsign' exponent' =>
      rw [List.append_assoc] at heq
      obtain ⟨rfl, rfl⟩ := ih base' heq (Phrase.stops_primary _) (Phrase.stops_primary _)
      rw [List.append_cancel_left heq] at hrest
      exact absurd hrest (Phrase.not_stops_caret hsign' _)
  | raise base hsign exponent ihbase ihexponent =>
    rw [List.append_assoc] at heq
    cases h' with
    | base primary' =>
      obtain ⟨rfl, rfl⟩ := ihbase primary' heq (Phrase.stops_primary _) (Phrase.stops_primary _)
      rw [← List.append_cancel_left heq] at hrest'
      exact absurd hrest' (Phrase.not_stops_caret hsign _)
    | raise base' hsign' exponent' =>
      rw [List.append_assoc] at heq
      obtain ⟨rfl, rfl⟩ := ihbase base' heq (Phrase.stops_primary _) (Phrase.stops_primary _)
      have hexponent := List.append_cancel_left heq
      simp only [List.cons_append, List.cons.injEq] at hexponent
      obtain ⟨rfl, hexponent⟩ := hexponent
      obtain ⟨rfl, rfl⟩ := ihexponent exponent' hexponent hrest hrest'
      exact ⟨rfl, rfl⟩
  | literal ht =>
    obtain ⟨t', l', rfl, -⟩ := h'.exists_cons_of_primary
    obtain ⟨rfl, -⟩ := List.cons.inj heq
    obtain ⟨rfl, rfl⟩ := h'.of_literal ht
    exact ⟨rfl, rfl⟩
  | constant ht =>
    obtain ⟨t', l', rfl, -⟩ := h'.exists_cons_of_primary
    obtain ⟨rfl, -⟩ := List.cons.inj heq
    obtain ⟨rfl, rfl⟩ := h'.of_constant ht
    exact ⟨rfl, rfl⟩
  | group hopening inner hclosing ih =>
    obtain ⟨t', l', rfl, -⟩ := h'.exists_cons_of_primary
    obtain ⟨rfl, htail⟩ := List.cons.inj heq
    obtain ⟨inside, closing', y, rfl, rfl, inner', hclosing'⟩ := h'.of_group hopening
    simp only [List.append_eq, List.append_assoc] at htail
    obtain ⟨rfl, rfl⟩ := ih inner' htail (Phrase.stops_closeParen hclosing _)
      (Phrase.stops_closeParen hclosing' _)
    obtain ⟨rfl, -⟩ := List.cons.inj (List.append_cancel_left htail)
    exact ⟨rfl, rfl⟩

/-- **No tokens have two readings.** -/
theorem unique (h : Reads phrase l x) (h' : Reads phrase l y) : x = y := by
  have heq : l ++ [] = l ++ [] := rfl
  exact (h.eq_of_append_eq h' heq trivial trivial).2

end Reads

end Palette.Calculator
