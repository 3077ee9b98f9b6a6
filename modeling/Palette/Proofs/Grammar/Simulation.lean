import Palette.Proofs.Grammar.Run

/-!
# Runs side by side

Two recognizers can be compared by running the same body on both. A relation between the outcomes
of runs that start in one state holds of whole runs as soon as it respects the few ways in which a
run is put together: a simulation has a field for each of them. What the two recognizers must have
in common is that they see the same tokens and that the tables they look up decide alike.

A property of a single run is a simulation of a recognizer by itself; `keeps` is the one that says
which parts of the state every run leaves alone.

Main statements: `Simulation.run`, `Simulation.invokeRule` and `keeps`.
-/

namespace Palette

/-! ## Recognizers that decide alike -/

namespace RecognizerInput

/-- Whether the tables predict the same alternatives and expect the same tokens. -/
def DecideAlike (input input' : RecognizerInput) (table table' : DecisionTable) : Prop :=
  (∀ s, input'.predict s table' = input.predict s table) ∧
    input'.expected table' = input.expected table

/-- The recognizers see the same tokens, and wherever they look up a table they decide alike. -/
structure Alike (input input' : RecognizerInput) : Prop where
  vocabulary : input'.vocabulary = input.vocabulary
  names : input'.names = input.names
  tokens : input'.tokens = input.tokens
  length : input'.length = input.length
  tables : ∀ key, Option.Rel (DecideAlike input input') (input.lookahead.table? key)
    (input'.lookahead.table? key)

namespace Alike

variable {input input' : RecognizerInput} (h : Alike input input')
include h

theorem ahead (s : Recognition) (number : Nat) : input'.ahead s number = input.ahead s number := by
  rw [RecognizerInput.ahead, RecognizerInput.ahead, h.tokens, h.length]

theorem fitsAhead (s : Recognition) (number : Nat) (kind : TokenKind) :
    input'.fitsAhead s number kind = input.fitsAhead s number kind := by
  rw [RecognizerInput.fitsAhead, RecognizerInput.fitsAhead, h.ahead, h.vocabulary]

theorem found (s : Recognition) : input'.found s = input.found s := by
  rw [RecognizerInput.found, RecognizerInput.found, h.ahead]

theorem report (s : Recognition) (kind : RecognitionErrorKind) (message : String) :
    input'.report s kind message = input.report s kind message := by
  rw [RecognizerInput.report, RecognizerInput.report, h.ahead, h.names]

/-- What both find at a decision. -/
theorem cases_table (s : Recognition) (site : Site) :
    (input.table? s site = none ∧ input'.table? s site = none) ∨
      ∃ table table', input.table? s site = some table ∧ input'.table? s site = some table' ∧
        input'.predict s table' = input.predict s table ∧
        input'.enters s table' = input.enters s table ∧
        input'.expected table' = input.expected table := by
  have hrel := h.tables ⟨s.stack.head?.getD 0, site⟩
  rw [RecognizerInput.table?, RecognizerInput.table?]
  generalize input.lookahead.table? ⟨s.stack.head?.getD 0, site⟩ = first at hrel
  generalize input'.lookahead.table? ⟨s.stack.head?.getD 0, site⟩ = second at hrel
  cases hrel with
  | none => exact .inl ⟨rfl, rfl⟩
  | @some table table' halike =>
    refine .inr ⟨table, table', rfl, rfl, halike.1 s, ?_, halike.2⟩
    rw [enters, enters, halike.1 s]

end Alike

section

variable {input input' : RecognizerInput}
  (h : ∀ s number kind, input'.fitsAhead s number kind = input.fitsAhead s number kind)
include h

theorem matchedFrom_congr (s : Recognition) (number : Nat) (path : Path) :
    input'.matchedFrom s number path = input.matchedFrom s number path := by
  induction path generalizing number with
  | nil => rfl
  | cons kind rest ih => rw [matchedFrom, matchedFrom, h, ih]

/-- Predictions depend on nothing but which kinds the tokens ahead fit. -/
theorem predict_congr (s : Recognition) (table : DecisionTable) :
    input'.predict s table = input.predict s table := by
  have hconsider : input'.consider s = input.consider s := by
    funext index c path
    rw [consider, consider, matched, matched, matchedFrom_congr h]
  rw [predict, predict, hconsider]

end

/-- A recognizer is like itself, whether it recovers or not. -/
theorem alike_of_recovery (input : RecognizerInput) (recovery : Bool) :
    Alike input { input with recovery } := by
  have hpredict : ∀ s table,
      ({ input with recovery } : RecognizerInput).predict s table = input.predict s table :=
    predict_congr fun _ _ _ => rfl
  refine ⟨rfl, rfl, rfl, rfl, fun key => ?_⟩
  show Option.Rel _ (input.lookahead.table? key) (input.lookahead.table? key)
  cases input.lookahead.table? key with
  | none => exact .none
  | some table => exact .some ⟨fun s => hpredict s table, rfl⟩

theorem Alike.refl (input : RecognizerInput) : Alike input input :=
  alike_of_recovery input input.recovery

end RecognizerInput

/-! ## Relations that runs respect -/

/-- A relation between two outcomes of runs from the same state. -/
abbrev OutcomeRel := (α : Type) → Recognition → Outcome α → Outcome α → Prop

/-- The relation holds of what the primitives do and is passed on by every way to put runs
together. -/
structure Simulation (input input' : RecognizerInput) (rel : OutcomeRel) : Prop where
  cutOff {α : Type} (s : Recognition) : rel α s .unfinished .unfinished
  stay {α : Type} (v : Option α) (s : Recognition) : rel α s (.finished v s) (.finished v s)
  note {α : Type} (v : Option α) (s : Recognition) (event : String) :
    rel α s (.finished v { s with log := s.log ++ [event] })
      (.finished v { s with log := s.log ++ [event] })
  report {α : Type} (v : Option α) (s : Recognition) (kind : RecognitionErrorKind)
    (message : String) :
    rel α s (.finished v (input.report s kind message)) (.finished v (input.report s kind message))
  consume (s : Recognition) (kind : TokenKind) :
    rel Token s (.finished (input.consume s kind).1 (input.consume s kind).2)
      (.finished (input'.consume s kind).1 (input'.consume s kind).2)
  andThen {α β : Type} {s : Recognition} {o o' : Outcome α}
    {next next' : Option α → Recognition → Outcome β} (first : rel α s o o')
    (rest : ∀ v t, rel β t (next v t) (next' v t)) : rel β s (o.andThen next) (o'.andThen next')
  speculate {α : Type} {run run' : Recognition → Outcome α} {s : Recognition}
    (tried : rel α { s with speculating := s.speculating + 1 }
      (run { s with speculating := s.speculating + 1 })
      (run' { s with speculating := s.speculating + 1 })) :
    rel α s (speculate run s) (speculate run' s)
  enter {α : Type} {s : Recognition} {r : RuleId} {o o' : Outcome α}
    (inside : rel α { s with stack := r :: s.stack } o o') :
    rel α s (o.andThen fun v t => .finished v { t with stack := t.stack.tail })
      (o'.andThen fun v t => .finished v { t with stack := t.stack.tail })

namespace Simulation

variable {input input' : RecognizerInput} {rel : OutcomeRel} {τ : Type}

theorem repeatRounds (h : Simulation input input' rel) (halike : input.Alike input') {σ : Type}
    {site : Site} {round round' : σ → Recognition → Outcome σ}
    (hround : ∀ a s, rel σ s (round a s) (round' a s)) (steps : Nat) (a : σ) (s : Recognition) :
    rel σ s (Palette.repeatRounds input site round steps a s)
      (Palette.repeatRounds input' site round' steps a s) := by
  induction steps generalizing a s with
  | zero => exact h.cutOff s
  | succ steps ih =>
    simp only [Palette.repeatRounds]
    rcases halike.cases_table s site with
      ⟨hnone, hnone'⟩ | ⟨table, table', hsome, hsome', -, henters, -⟩
    · simp only [hnone, hnone']
      refine h.andThen (h.speculate (hround a _)) fun v t => ?_
      cases v with
      | none => exact h.stay _ t
      | some a' =>
        dsimp only
        split
        · exact h.stay _ t
        · exact ih a' t
    · simp only [hsome, hsome', henters]
      split
      · refine h.andThen (hround a s) fun v t => ?_
        cases v with
        | none => exact h.stay _ t
        | some a' =>
          dsimp only
          split
          · exact h.stay _ t
          · exact ih a' t
      · exact h.stay _ s

/-- A first round and what follows it, side by side, if rounds are and what follows all of them. -/
theorem atLeastOneRound (h : Simulation input input' rel) (halike : input.Alike input')
    {σ α : Type} (site : Site) {round round' : σ → Recognition → Outcome σ}
    {next next' : Option σ → Recognition → Outcome α}
    (hround : ∀ a s, rel σ s (round a s) (round' a s))
    (hnext : ∀ v s, rel α s (next v s) (next' v s)) (steps : Nat) (initial : σ) (s : Recognition) :
    rel α s
      ((round initial s).andThen fun
        | none, t => next none t
        | some a, t => (Palette.repeatRounds input site round steps a t).andThen next)
      ((round' initial s).andThen fun
        | none, t => next' none t
        | some a, t => (Palette.repeatRounds input' site round' steps a t).andThen next') := by
  refine h.andThen (hround initial s) fun v t => ?_
  cases v with
  | none => exact hnext none t
  | some a => exact h.andThen (h.repeatRounds halike hround steps a t) hnext

theorem firstOf (h : Simulation input input' rel) {ι α : Type}
    {run run' : ι → Recognition → Outcome α} (hrun : ∀ i s, rel α s (run i s) (run' i s))
    (l : List ι) (s : Recognition) :
    rel α s (Palette.firstOf run l s) (Palette.firstOf run' l s) := by
  induction l generalizing s with
  | nil => exact h.stay _ s
  | cons i rest ih =>
    refine h.andThen (h.speculate (hrun i _)) fun v t => ?_
    cases v with
    | none => exact ih t
    | some a => exact h.stay _ t

/-- **Bodies run side by side.** -/
theorem run (h : Simulation input input' rel) (halike : input.Alike input')
    {find : String → Option RuleId} {invoke invoke' : RuleId → Recognition → Outcome τ}
    (hinvoke : ∀ r s, rel τ s (invoke r s) (invoke' r s)) (steps : Nat) {α : Type} (b : Body τ α)
    (s : Recognition) :
    rel α s (b.run input find invoke steps s) (b.run input' find invoke' steps s) := by
  -- A primitive that ends by itself is the first of two runs; what follows it is the second.
  induction b generalizing s with
  | done a => exact h.stay _ s
  | fail => exact h.stay _ s
  | consume kind next ih => exact h.andThen (h.consume s kind) ih
  | subrule name next ih =>
    simp only [Body.run]
    split
    · rw [halike.report]
      exact h.andThen (h.report none s _ _) ih
    · exact h.andThen (hinvoke _ s) ih
  | option site body next ihbody ih =>
    simp only [Body.run]
    rcases halike.cases_table s site with
      ⟨hnone, hnone'⟩ | ⟨table, table', hsome, hsome', -, henters, -⟩
    · simp only [hnone, hnone']
      exact h.andThen (h.speculate (ihbody _)) fun v t => ih _ t
    · simp only [hsome, hsome', henters]
      split
      · exact h.andThen (ihbody s) fun v t => ih _ t
      · exact ih _ s
  | many site initial round next ihround ih =>
    exact h.andThen (h.repeatRounds halike ihround steps initial s) ih
  | atLeastOne site initial round next ihround ih =>
    -- Both refuse the first round, or neither does.
    have hfirst := h.atLeastOneRound halike site ihround ih steps initial s
    simp only [Body.run]
    rcases halike.cases_table s site with
      ⟨hnone, hnone'⟩ | ⟨table, table', hsome, hsome', -, henters, hexpected⟩
    · simp only [hnone, hnone', Option.filter_none]
      exact hfirst
    · simp only [hsome, hsome', Option.filter_some, henters]
      cases input.enters s table with
      | true => exact hfirst
      | false =>
        simp only [Bool.not_false, if_true, hexpected, halike.found, halike.report]
        exact h.andThen (h.report none s _ _) ih
  | choose site count alternatives blank next ihalt ih =>
    simp only [Body.run]
    rcases halike.cases_table s site with
      ⟨hnone, hnone'⟩ | ⟨table, table', hsome, hsome', hpredict, -, hexpected⟩
    · simp only [hnone, hnone']
      refine h.andThen (h.firstOf ihalt _ s) fun v t => ?_
      cases v with
      | some a => exact ih _ t
      | none =>
        simp only [halike.found, halike.report]
        exact h.andThen (h.report none t _ _) ih
    · simp only [hsome, hsome', hpredict, hexpected, halike.found, halike.report]
      split
      · exact h.andThen (ihalt _ s) ih
      · exact h.andThen (h.report none s _ _) ih
  | action event next ih => exact h.andThen (h.note (some ()) s event) fun _ t => ih t
  | lookahead number next ih =>
    simp only [Body.run, halike.ahead]
    exact ih _ s
  | recording next ih => exact ih _ s
  | progress next ih =>
    simp only [Body.run, halike.tokens]
    exact ih _ s

theorem enterRule (h : Simulation input input' rel) (halike : input.Alike input')
    {rules : List (RuleDef τ)} {invoke invoke' : RuleId → Recognition → Outcome τ}
    (hinvoke : ∀ r s, rel τ s (invoke r s) (invoke' r s)) (steps : Nat) (r : RuleId)
    (s : Recognition) :
    rel τ s (Palette.enterRule rules input invoke steps r s)
      (Palette.enterRule rules input' invoke' steps r s) := by
  unfold Palette.enterRule
  split
  · exact h.cutOff s
  · exact h.enter (h.run halike hinvoke steps _ _)

/-- **Rules run side by side.** -/
theorem invokeRule (h : Simulation input input' rel) (halike : input.Alike input')
    (rules : List (RuleDef τ)) (steps : Nat) (r : RuleId) (s : Recognition) :
    rel τ s (Palette.invokeRule rules input steps r s)
      (Palette.invokeRule rules input' steps r s) := by
  induction steps generalizing r s with
  | zero => exact h.cutOff s
  | succ steps ih => exact h.enterRule halike ih steps r s

/-- Whole texts are recognized side by side. -/
theorem recognizeWith (h : Simulation input input' rel) (halike : input.Alike input')
    (rules : List (RuleDef τ)) (steps : Nat) (start : RuleId) :
    rel τ .start (Palette.recognizeWith rules input steps start)
      (Palette.recognizeWith rules input' steps start) := by
  refine h.andThen (h.invokeRule halike rules steps start .start) fun v t => ?_
  cases v with
  | none => exact h.stay _ t
  | some v =>
    simp only [halike.tokens, halike.found, halike.report]
    split
    · exact h.report (some v) t _ _
    · exact h.stay _ t

end Simulation

/-! ## What a run leaves alone -/

/-- The errors of the first state are still there in the second, and its stack and the number of
speculative bodies are the same. -/
structure Recognition.Keeps (s t : Recognition) : Prop where
  errors : s.errors <+: t.errors
  stack : t.stack = s.stack
  speculating : t.speculating = s.speculating

namespace Recognition.Keeps

variable {s t u : Recognition}

theorem refl (s : Recognition) : s.Keeps s := ⟨List.prefix_refl _, rfl, rfl⟩

theorem trans (h : s.Keeps t) (h' : t.Keeps u) : s.Keeps u :=
  ⟨h.errors.trans h'.errors, h'.stack.trans h.stack, h'.speculating.trans h.speculating⟩

end Recognition.Keeps

theorem RecognizerInput.keeps_report (input : RecognizerInput) (s : Recognition)
    (kind : RecognitionErrorKind) (message : String) : s.Keeps (input.report s kind message) :=
  ⟨List.prefix_append _ _, rfl, rfl⟩

theorem RecognizerInput.keeps_consume (input : RecognizerInput) (s : Recognition)
    (kind : TokenKind) : s.Keeps (input.consume s kind).2 := by
  unfold consume
  split
  · exact ⟨List.prefix_refl _, rfl, rfl⟩
  · split
    · exact ⟨List.prefix_append _ _, rfl, rfl⟩
    · exact input.keeps_report s _ _

/-- Whether the run, if it ends, keeps what it started with. -/
def Outcome.Keeps {α : Type} (s : Recognition) (o : Outcome α) : Prop :=
  ∀ v t, o = .finished v t → s.Keeps t

namespace Outcome.Keeps

variable {α β : Type} {s t : Recognition} {o : Outcome α}

theorem finished (v : Option α) (h : s.Keeps t) : Outcome.Keeps s (.finished v t) := by
  rintro _ _ ⟨⟩
  exact h

theorem andThen {next : Option α → Recognition → Outcome β} (h : o.Keeps s)
    (hnext : ∀ v t, (next v t).Keeps t) : (o.andThen next).Keeps s := by
  intro v u hu
  obtain ⟨w, t, ho, hu⟩ := andThen_eq_finished hu
  exact (h w t ho).trans (hnext w t v u hu)

section

variable {run : Recognition → Outcome α} {u : Recognition}
  (h : (run { s with speculating := s.speculating + 1 }).Keeps
    { s with speculating := s.speculating + 1 })
include h

/-- What is tried out and fails leaves nothing behind but the events noted on the way. -/
theorem speculate_eq_none
    (hu : run { s with speculating := s.speculating + 1 } = .finished none u) :
    Palette.speculate run s = .finished none { s with log := u.log } := by
  have hkeeps := h none u hu
  have herrors : u.errors.take s.errors.length = s.errors :=
    (List.prefix_iff_eq_take.mp hkeeps.errors).symm
  rw [Palette.speculate, hu]
  simp only [Outcome.andThen]
  rw [herrors, hkeeps.stack, hkeeps.speculating]
  rfl

/-- What is tried out and succeeds is kept. -/
theorem speculate_eq_some {a : α}
    (hu : run { s with speculating := s.speculating + 1 } = .finished (some a) u) :
    Palette.speculate run s = .finished (some a) { u with speculating := s.speculating } := by
  rw [Palette.speculate, hu]
  simp only [Outcome.andThen]
  rw [(h (some a) u hu).speculating]
  rfl

/-- What is tried out ends where it began, or where its run did. -/
theorem cases_speculate {v : Option α} {t : Recognition}
    (ht : Palette.speculate run s = .finished v t) :
    (∃ u, run { s with speculating := s.speculating + 1 } = .finished none u ∧ v = none ∧
        t = { s with log := u.log }) ∨
      ∃ a u, run { s with speculating := s.speculating + 1 } = .finished (some a) u ∧
        v = some a ∧ t = { u with speculating := s.speculating } := by
  obtain ⟨w, u, hu, -⟩ := andThen_eq_finished ht
  cases w with
  | none =>
    obtain ⟨rfl, rfl⟩ := finished.inj ((h.speculate_eq_none hu).symm.trans ht)
    exact .inl ⟨u, hu, rfl, rfl⟩
  | some a =>
    obtain ⟨rfl, rfl⟩ := finished.inj ((h.speculate_eq_some hu).symm.trans ht)
    exact .inr ⟨a, u, hu, rfl, rfl⟩

theorem speculate : (Palette.speculate run s).Keeps s := by
  intro v t ht
  obtain ⟨u, -, -, rfl⟩ | ⟨a, u, hu, -, rfl⟩ := h.cases_speculate ht
  · exact ⟨List.prefix_refl _, rfl, rfl⟩
  · obtain ⟨herrors, hstack, -⟩ := h (some a) u hu
    exact ⟨herrors, hstack, rfl⟩

end

/-- Leaving a rule takes away from the stack what entering it put there. -/
theorem enter {r : RuleId} (h : o.Keeps { s with stack := r :: s.stack }) :
    (o.andThen fun v t => .finished v { t with stack := t.stack.tail }).Keeps s := by
  intro v u hu
  obtain ⟨w, t, ho, hu⟩ := andThen_eq_finished hu
  have hkeeps := h w t ho
  cases hu
  refine ⟨hkeeps.errors, ?_, hkeeps.speculating⟩
  show t.stack.tail = s.stack
  rw [hkeeps.stack]
  rfl

end Outcome.Keeps

/-- **Every run keeps its errors, its stack and how deep it speculates.** -/
theorem keeps (input : RecognizerInput) :
    Simulation input input fun _ s o _ => o.Keeps s where
  cutOff _ := nofun
  stay v _ := .finished v (.refl _)
  note v _ _ := .finished v ⟨List.prefix_refl _, rfl, rfl⟩
  report v s kind message := .finished v (input.keeps_report s kind message)
  consume s kind := .finished _ (input.keeps_consume s kind)
  andThen := .andThen
  speculate := .speculate
  enter := .enter

theorem Body.run_keeps {τ α : Type} {input : RecognizerInput} {find : String → Option RuleId}
    {invoke : RuleId → Recognition → Outcome τ} (h : ∀ r s, (invoke r s).Keeps s) (steps : Nat)
    (b : Body τ α) (s : Recognition) : (b.run input find invoke steps s).Keeps s :=
  @Simulation.run input input _ τ (keeps input) (.refl input) find invoke invoke h steps α b s

theorem invokeRule_keeps {τ : Type} (rules : List (RuleDef τ)) (input : RecognizerInput)
    (steps : Nat) (r : RuleId) (s : Recognition) : (invokeRule rules input steps r s).Keeps s :=
  (keeps input).invokeRule (.refl input) rules steps r s

end Palette
