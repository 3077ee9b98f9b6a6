import Palette.Proofs.Grammar.Run

/-!
# Bodies that come to a value

A body comes to a value in some number of steps. What is known of the parts of a body in `do`
notation is put together here without counting them: one part behind the other, a rule from its
body, and a decision from the alternative that its table calls for.

Main statement: `Body.ComesTo.bind`.
-/

namespace Palette

/-! ## The tokens ahead -/

/-- The state some tokens later. -/
def Recognition.advance (s : Recognition) (count : Nat) : Recognition :=
  { s with position := s.position + count }

/-- The state with a rule on the stack. -/
def Recognition.enter (s : Recognition) (r : RuleId) : Recognition :=
  { s with stack := r :: s.stack }

theorem Recognition.advance_append (s : Recognition) (l m : List Token) :
    s.advance (l ++ m).length = (s.advance l.length).advance m.length := by
  simp only [advance, List.length_append, Nat.add_assoc]

theorem Recognition.advance_cons (s : Recognition) (t : Token) (l : List Token) :
    s.advance (t :: l).length = (s.advance 1).advance l.length :=
  s.advance_append [t] l

namespace RecognizerInput

variable {input : RecognizerInput} {s : Recognition} {t : Token} {l rest : List Token}

/-- The tokens that are not behind yet. -/
def remaining (input : RecognizerInput) (s : Recognition) : List Token :=
  input.tokens.toList.drop s.position

theorem remaining_advance (h : input.remaining s = l ++ rest) :
    input.remaining (s.advance l.length) = rest := by
  unfold remaining at h ⊢
  rw [Recognition.advance, ← List.drop_drop, h, List.drop_left]

theorem remaining_advance_one (h : input.remaining s = t :: rest) :
    input.remaining (s.advance 1) = rest :=
  remaining_advance (l := [t]) h

theorem ahead_of_remaining (h : input.remaining s = t :: rest) : input.ahead s 1 = t := by
  have hget : input.tokens.toList[s.position]? = some t := by
    rw [← Nat.add_zero s.position, ← List.getElem?_drop]
    exact congrArg (·[0]?) h
  rw [ahead, Nat.sub_self, Nat.add_zero, ← Array.getElem?_toList, hget, Option.getD_some]

theorem kind_ahead_of_remaining_nil (h : input.remaining s = []) :
    (input.ahead s 1).kind = .endOfInput := by
  have hget : input.tokens.toList[s.position]? = none :=
    List.getElem?_eq_none (List.drop_eq_nil_iff.mp h)
  rw [ahead, Nat.sub_self, Nat.add_zero, ← Array.getElem?_toList, hget]
  rfl

end RecognizerInput

section

variable {τ α β σ : Type} {rules : List (RuleDef τ)} {input : RecognizerInput}
  {s t u : Recognition}

/-- The body comes to a value in some number of steps. -/
def Body.ComesTo (rules : List (RuleDef τ)) (input : RecognizerInput) (b : Body τ α)
    (s : Recognition) (a : α) (t : Recognition) : Prop :=
  ∃ n, b.run input (ruleId? rules) (invokeRule rules input n) n s = .finished (some a) t

/-- The rule comes to a value in some number of steps. -/
def RuleComesTo (rules : List (RuleDef τ)) (input : RecognizerInput) (r : RuleId)
    (s : Recognition) (v : τ) (t : Recognition) : Prop :=
  ∃ n, invokeRule rules input n r s = .finished (some v) t

/-- The rounds of a repetition come to a value in some number of steps. -/
def RoundsComeTo (rules : List (RuleDef τ)) (input : RecognizerInput) (site : Site)
    (round : σ → Body τ σ) (a : σ) (s : Recognition) (a' : σ) (t : Recognition) : Prop :=
  ∃ n, repeatRounds input site
    (fun a s => (round a).run input (ruleId? rules) (invokeRule rules input n) n s) n a s
      = .finished (some a') t

/-- More steps are enough as well. -/
theorem Body.ComesTo.mono {b : Body τ α} {a : α} (h : b.ComesTo rules input s a t) :
    ∃ n, ∀ m ≥ n, b.run input (ruleId? rules) (invokeRule rules input m) m s
      = .finished (some a) t := by
  obtain ⟨n, hn⟩ := h
  exact ⟨n, fun m hm => run_below (invokeRule_below rules input hm) hm b s _ _ hn⟩

theorem RuleComesTo.mono {r : RuleId} {v : τ} (h : RuleComesTo rules input r s v t) :
    ∃ n, ∀ m ≥ n, invokeRule rules input m r s = .finished (some v) t := by
  obtain ⟨n, hn⟩ := h
  exact ⟨n, fun m hm => invokeRule_below rules input hm r s _ _ hn⟩

/-- Rounds and what they invoke may be given different numbers of steps. -/
theorem RoundsComeTo.mono {site : Site} {round : σ → Body τ σ} {a a' : σ}
    (h : RoundsComeTo rules input site round a s a' t) :
    ∃ n, ∀ m ≥ n, ∀ k ≥ n, repeatRounds input site
      (fun a s => (round a).run input (ruleId? rules) (invokeRule rules input m) m s) k a s
        = .finished (some a') t := by
  obtain ⟨n, hn⟩ := h
  exact ⟨n, fun m hm k hk => repeatRounds_below
    (fun a s => Body.run_below (invokeRule_below rules input hm) hm (round a) s) hk a s _ _ hn⟩

/-! ## Rules and rounds -/

/-- A rule comes to what its body comes to with the rule on the stack. -/
theorem RuleComesTo.of_body {r : RuleId} {rule : RuleDef τ} {v : τ} (hrule : rules[r]? = some rule)
    (h : rule.body.ComesTo rules input (s.enter r) v (t.enter r)) :
    RuleComesTo rules input r s v t := by
  obtain ⟨n, hn⟩ := h
  refine ⟨n + 1, ?_⟩
  rw [invokeRule, enterRule, hrule]
  show Outcome.andThen (rule.body.run input _ _ n (s.enter r)) _ = _
  rw [hn]
  rfl

/-- A start rule that leaves no tokens over comes to the value of the whole text. -/
theorem RuleComesTo.exists_recognizeWith {start : RuleId} {v : τ}
    (h : RuleComesTo rules input start .start v t) (ht : input.tokens.size ≤ t.position) :
    ∃ n, recognizeWith rules input n start = .finished (some v) t := by
  obtain ⟨n, hn⟩ := h
  refine ⟨n, ?_⟩
  rw [recognizeWith, hn]
  exact if_neg (Nat.not_lt.mpr ht)

section

variable {site : Site} {round : σ → Body τ σ} {a a' a'' : σ} {table : DecisionTable}

/-- Where no round can start, the rounds are over. -/
theorem RoundsComeTo.stop (htable : input.table? s site = some table)
    (henters : input.enters s table = false) :
    RoundsComeTo rules input site round a s a s := by
  refine ⟨1, ?_⟩
  simp [repeatRounds, htable, henters]

/-- Where one can, the rounds go on behind it. -/
theorem RoundsComeTo.step (htable : input.table? s site = some table)
    (henters : input.enters s table = true) (hround : (round a).ComesTo rules input s a' t)
    (hmoved : t.position ≠ s.position) (h : RoundsComeTo rules input site round a' t a'' u) :
    RoundsComeTo rules input site round a s a'' u := by
  obtain ⟨n, hn⟩ := hround.mono
  obtain ⟨m, hm⟩ := h.mono
  -- One more than enough for either, since the round at hand takes a step of its own.
  refine ⟨max n m + 1, ?_⟩
  rw [repeatRounds, htable]
  dsimp only
  rw [if_pos henters, hn _ (by omega)]
  dsimp only [Outcome.andThen]
  rw [if_neg hmoved]
  exact hm _ (by omega) _ (by omega)

end

/-! ## Bodies -/

namespace Body.ComesTo

theorem pure (a : α) (s : Recognition) :
    (Pure.pure a : Body τ α).ComesTo rules input s a s := ⟨0, rfl⟩

/-- **One part behind the other.** -/
theorem bind {b : Body τ α} {f : α → Body τ β} {a : α} {c : β} (h : b.ComesTo rules input s a t)
    (hf : (f a).ComesTo rules input t c u) : (b >>= f).ComesTo rules input s c u := by
  obtain ⟨n, hn⟩ := h.mono
  obtain ⟨m, hm⟩ := hf.mono
  refine ⟨max n m, ?_⟩
  show (b.andThen _).run _ _ _ _ _ = _
  rw [run_andThen, hn _ (Nat.le_max_left n m)]
  exact hm _ (Nat.le_max_right n m)

/-- The next token, if it fits. -/
theorem take {kind : TokenKind} (h : input.fitsAhead s 1 kind = true) :
    (Body.take kind : Body τ Token).ComesTo rules input s (input.ahead s 1) (s.advance 1) := by
  refine ⟨0, ?_⟩
  simp only [Body.take, run, RecognizerInput.consume, h, if_true]
  rfl

theorem call {name : String} {r : RuleId} {v : τ} (hname : ruleId? rules name = some r)
    (h : RuleComesTo rules input r s v t) : (Body.call name).ComesTo rules input s v t := by
  obtain ⟨n, hn⟩ := h
  refine ⟨n, ?_⟩
  simp only [Body.call, run, hname, hn]
  rfl

theorem perhaps_some {site : Site} {table : DecisionTable} {b : Body τ α} {a : α}
    (htable : input.table? s site = some table) (henters : input.enters s table = true)
    (h : b.ComesTo rules input s a t) :
    (Body.perhaps site b).ComesTo rules input s (some a) t := by
  obtain ⟨n, hn⟩ := h
  refine ⟨n, ?_⟩
  simp only [Body.perhaps, run, htable, henters, if_true, hn]
  rfl

theorem perhaps_none {site : Site} {table : DecisionTable} {b : Body τ α}
    (htable : input.table? s site = some table) (henters : input.enters s table = false) :
    (Body.perhaps site b).ComesTo rules input s none s := by
  refine ⟨0, ?_⟩
  simp only [Body.perhaps, run, htable, henters]
  rfl

theorem loop {site : Site} {round : σ → Body τ σ} {a a' : σ}
    (h : RoundsComeTo rules input site round a s a' t) :
    (Body.loop site a round).ComesTo rules input s a' t := by
  obtain ⟨n, hn⟩ := h
  refine ⟨n, ?_⟩
  simp only [Body.loop, run, hn]
  rfl

theorem oneOf {site : Site} {table : DecisionTable} {blank a : α} {alternatives : List (Body τ α)}
    {i : Nat} {b : Body τ α} (htable : input.table? s site = some table)
    (hpredict : input.predict s table = some i) (hb : alternatives[i]? = some b)
    (h : b.ComesTo rules input s a t) :
    (Body.oneOf site blank alternatives).ComesTo rules input s a t := by
  obtain ⟨n, hn⟩ := h
  obtain ⟨hi, rfl⟩ := List.getElem?_eq_some_iff.mp hb
  refine ⟨n, ?_⟩
  have hrun : (alternatives.get ⟨i, hi⟩).run input (ruleId? rules) (invokeRule rules input n) n s
      = .finished (some a) t := hn
  simp only [Body.oneOf, run, htable, hpredict, Option.bind_some, hi, dif_pos, hrun]
  rfl

end Body.ComesTo

end

end Palette
