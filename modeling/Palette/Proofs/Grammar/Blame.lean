import Palette.Proofs.Grammar.Outline
import Palette.Proofs.Grammar.Simulation

/-!
# A failure leaves one error

A body that passes every failure on gives up at the first one, so without recovery it reports one
error at most: none when it comes to a value, and one when it does not. What is tried out and taken
back leaves no error, whatever it reported on the way.

Main statements: `Body.run_blames` for bodies and `invokeRule_blames` for rules.
-/

namespace Palette

/-- The body comes to no value, and it calls nothing that could fail on the way. -/
def Body.GivesUp {τ α : Type} : Body τ α → Prop
  | fail => True
  | action _ next => next.GivesUp
  | lookahead _ next => ∀ t, (next t).GivesUp
  | recording next => (next false).GivesUp
  | progress next => ∀ p, (next p).GivesUp
  | done _ | consume _ _ | subrule _ _ | option _ _ _ | many _ _ _ _ | atLeastOne _ _ _ _
  | choose _ _ _ _ _ => False

/-- The body gives up as soon as a call fails, and only then. What it does otherwise may depend on
the tokens ahead and on how far the run is. -/
def Body.Propagates {τ α : Type} : Body τ α → Prop
  | done _ => True
  | fail => False
  | consume _ next => (next none).GivesUp ∧ ∀ t, (next (some t)).Propagates
  | subrule _ next => (next none).GivesUp ∧ ∀ v, (next (some v)).Propagates
  | option _ body next =>
    (next none).GivesUp ∧ body.Propagates ∧ ∀ v, (next (some v)).Propagates
  | many _ _ round next =>
    (next none).GivesUp ∧ (∀ a, (round a).Propagates) ∧ ∀ a, (next (some a)).Propagates
  | atLeastOne _ _ round next =>
    (next none).GivesUp ∧ (∀ a, (round a).Propagates) ∧ ∀ a, (next (some a)).Propagates
  | choose _ _ alternatives _ next =>
    (next none).GivesUp ∧ (∀ i, (alternatives i).Propagates) ∧ ∀ v, (next (some v)).Propagates
  | action _ next => next.Propagates
  | lookahead _ next => ∀ t, (next t).Propagates
  | recording next => (next false).Propagates
  | progress next => ∀ p, (next p).Propagates

theorem Body.GivesUp.of_eq_fail {τ α : Type} {b : Body τ α} (h : b = fail) : b.GivesUp :=
  h ▸ trivial

/-- A static body passes every failure on. -/
theorem Body.Makes.propagates {τ α : Type} {b : Body τ α} {calls : List Call}
    (h : b.Makes calls) : b.Propagates := by
  induction b generalizing calls with
  | done a => trivial
  | fail => exact h
  | consume kind next ih =>
    obtain ⟨-, hfail, rest, -, hnext⟩ := h
    exact ⟨.of_eq_fail hfail, fun t => ih _ (hnext t)⟩
  | subrule name next ih =>
    obtain ⟨hfail, rest, -, hnext⟩ := h
    exact ⟨.of_eq_fail hfail, fun v => ih _ (hnext v)⟩
  | option site body next ihbody ih =>
    obtain ⟨hfail, inner, rest, -, hbody, hnext⟩ := h
    exact ⟨.of_eq_fail hfail, ihbody hbody, fun v => ih _ (hnext v)⟩
  | many site initial round next ihround ih =>
    obtain ⟨hfail, inner, rest, -, hround, hnext⟩ := h
    exact ⟨.of_eq_fail hfail, fun a => ihround a (hround a), fun a => ih _ (hnext a)⟩
  | atLeastOne site initial round next ihround ih =>
    obtain ⟨hfail, inner, rest, -, hround, hnext⟩ := h
    exact ⟨.of_eq_fail hfail, fun a => ihround a (hround a), fun a => ih _ (hnext a)⟩
  | choose site count alternatives blank next ihalt ih =>
    obtain ⟨hfail, inner, rest, -, hlen, halt, hnext⟩ := h
    refine ⟨.of_eq_fail hfail, fun i => ?_, fun v => ih _ (hnext v)⟩
    exact ihalt i (halt i _ (List.getElem?_eq_getElem (hlen ▸ i.isLt)))
  | action event next ih => exact ih h
  | lookahead number next ih => exact h.elim
  | recording next ih => exact h.elim
  | progress next ih => exact h.elim

/-! ## One error for a failure -/

/-- A run that ends with a value reports nothing, and one that ends without reports one error. -/
def Outcome.Blames {α : Type} (s : Recognition) (o : Outcome α) : Prop :=
  (∀ a t, o = .finished (some a) t → t.errors = s.errors) ∧
    ∀ t, o = .finished none t → ∃ e, t.errors = s.errors ++ [e]

namespace Outcome.Blames

variable {α β : Type} {s t : Recognition} {o : Outcome α}

theorem unfinished (s : Recognition) : (Outcome.unfinished : Outcome α).Blames s := ⟨nofun, nofun⟩

theorem value (a : α) (h : t.errors = s.errors) : Outcome.Blames s (.finished (some a) t) :=
  ⟨fun _ _ ht => by cases ht; exact h, nofun⟩

theorem error {e : RecognitionError} (h : t.errors = s.errors ++ [e]) :
    Outcome.Blames s (.finished (none : Option α) t) :=
  ⟨nofun, fun _ ht => by cases ht; exact ⟨e, h⟩⟩

/-- Where there are the same errors, there is as much to blame. -/
theorem of_errors_eq (h : o.Blames t) (hs : t.errors = s.errors) : o.Blames s := by
  unfold Blames at h ⊢
  rwa [← hs]

/-- What follows a value is to blame for what happens behind it. -/
theorem andThen {next : Option α → Recognition → Outcome β} (h : o.Blames s)
    (hnone : ∀ t, ∃ u, next none t = .finished none u ∧ u.errors = t.errors)
    (hnext : ∀ a t, (next (some a) t).Blames t) : (o.andThen next).Blames s := by
  cases o with
  | unfinished => exact unfinished s
  | finished v t =>
    cases v with
    | none =>
      obtain ⟨u, hu, herrors⟩ := hnone t
      obtain ⟨e, he⟩ := h.2 t rfl
      show (next none t).Blames s
      rw [hu]
      exact error (herrors.trans he)
    | some a => exact (hnext a t).of_errors_eq (h.1 a t rfl)

end Outcome.Blames

section

variable {τ α β σ ι : Type} {rules : List (RuleDef τ)} {input : RecognizerInput}
  {find : String → Option RuleId} {invoke : RuleId → Recognition → Outcome τ} {steps : Nat}
  {s : Recognition}

/-- A body that gives up comes to no value and reports nothing any more. -/
theorem Body.GivesUp.exists_run {b : Body τ α} (h : b.GivesUp) (t : Recognition) :
    ∃ u, b.run input find invoke steps t = .finished none u ∧ u.errors = t.errors := by
  induction b generalizing t with
  | fail => exact ⟨t, rfl, rfl⟩
  | action event next ih => exact ih h { t with log := t.log ++ [event] }
  | lookahead number next ih => exact ih _ (h _) t
  | recording next ih => exact ih _ h t
  | progress next ih => exact ih _ (h _) t
  | done | consume | subrule | option | many | atLeastOne | choose => exact h.elim

theorem Body.blames_andThen {next : Option β → Body τ α} (hfail : (next none).GivesUp)
    {o : Outcome β} (ho : o.Blames s)
    (hnext : ∀ v t, ((next (some v)).run input find invoke steps t).Blames t) :
    (o.andThen fun v t => (next v).run input find invoke steps t).Blames s :=
  ho.andThen hfail.exists_run hnext

/-- What is tried out leaves no error. -/
theorem errors_eq_of_speculate {run : Recognition → Outcome α}
    (hkeeps : ∀ s, (run s).Keeps s) (hblames : ∀ s, (run s).Blames s) {v : Option α}
    {t : Recognition} (h : speculate run s = .finished v t) : t.errors = s.errors := by
  obtain ⟨u, -, -, rfl⟩ | ⟨a, u, hu, -, rfl⟩ := (hkeeps _).cases_speculate h
  · rfl
  · exact (hblames { s with speculating := s.speculating + 1 }).1 a u hu

theorem repeatRounds_blames {site : Site} {round : σ → Recognition → Outcome σ}
    (hkeeps : ∀ a s, (round a s).Keeps s) (hblames : ∀ a s, (round a s).Blames s) (steps : Nat)
    (a : σ) (s : Recognition) : (repeatRounds input site round steps a s).Blames s := by
  induction steps generalizing a s with
  | zero => exact .unfinished s
  | succ steps ih =>
    simp only [repeatRounds]
    split
    · split
      · refine (hblames a s).andThen (fun t => ⟨t, rfl, rfl⟩) fun a' t => ?_
        dsimp only
        split
        · exact .value a' rfl
        · exact ih a' t
      · exact .value a rfl
    · cases htried : speculate (round a) s with
      | unfinished => exact .unfinished s
      | finished v t =>
        have herrors := errors_eq_of_speculate (hkeeps a) (hblames a) htried
        cases v with
        | none => exact .value a herrors
        | some a' =>
          simp only [Outcome.andThen]
          split
          · exact .value a' herrors
          · exact (ih a' t).of_errors_eq herrors

/-- Of several bodies that are tried out, none leaves an error. -/
theorem errors_eq_of_firstOf {run : ι → Recognition → Outcome α}
    (hkeeps : ∀ i s, (run i s).Keeps s) (hblames : ∀ i s, (run i s).Blames s) {l : List ι}
    {v : Option α} {t : Recognition} (h : firstOf run l s = .finished v t) :
    t.errors = s.errors := by
  induction l generalizing s with
  | nil =>
    cases h
    rfl
  | cons i rest ih =>
    obtain ⟨w, u, hu, h⟩ := Outcome.andThen_eq_finished h
    have herrors := errors_eq_of_speculate (hkeeps i) (hblames i) hu
    cases w with
    | none => exact (ih h).trans herrors
    | some a =>
      cases h
      exact herrors

/-! ## Bodies -/

/-- A primitive that reports an error is the last thing that the body does. -/
theorem Body.blames_report {next : Option β → Body τ α} (hfail : (next none).GivesUp)
    {t : Recognition} (ht : t.errors = s.errors) (kind : RecognitionErrorKind)
    (message : String) :
    ((next none).run input find invoke steps (input.report t kind message)).Blames s := by
  obtain ⟨u, hu, herrors⟩ := hfail.exists_run (input.report t kind message)
  rw [hu]
  exact .error (herrors.trans (congrArg (· ++ _) ht))

theorem RecognizerInput.consume_blames (hrecovery : input.recovery = false) (s : Recognition)
    (kind : TokenKind) :
    (Outcome.finished (input.consume s kind).1 (input.consume s kind).2).Blames s := by
  unfold consume
  split
  · exact .value _ rfl
  · rw [hrecovery]
    exact .error rfl

/-- **Without recovery a body leaves one error if it fails, and none otherwise.** -/
theorem Body.run_blames (hrecovery : input.recovery = false)
    (hkeeps : ∀ r s, (invoke r s).Keeps s) (hinvoke : ∀ r s, (invoke r s).Blames s)
    (b : Body τ α) (hb : b.Propagates) (s : Recognition) :
    (b.run input find invoke steps s).Blames s := by
  -- What is tried out and taken back is cut back to the errors before it, which are still there
  -- because a run only ever adds to them.
  have hstays {β : Type} (b : Body τ β) (s : Recognition) :
      (b.run input find invoke steps s).Keeps s := run_keeps hkeeps steps b s
  induction b generalizing s with
  | done a => exact .value a rfl
  | fail => exact hb.elim
  | consume kind next ih =>
    obtain ⟨hfail, hnext⟩ := hb
    exact blames_andThen hfail (RecognizerInput.consume_blames hrecovery s kind)
      fun t u => ih _ (hnext t) u
  | subrule name next ih =>
    obtain ⟨hfail, hnext⟩ := hb
    simp only [run]
    split
    · exact blames_report hfail rfl _ _
    · exact blames_andThen hfail (hinvoke _ s) fun v t => ih _ (hnext v) t
  | option site body next ihbody ih =>
    obtain ⟨hfail, hbody, hnext⟩ := hb
    simp only [run]
    split
    · split
      · exact (ihbody hbody s).andThen hfail.exists_run fun v t => ih _ (hnext v) t
      · exact ih _ (hnext _) s
    · cases htried : speculate (body.run input find invoke steps) s with
      | unfinished => exact .unfinished s
      | finished v t =>
        have herrors := errors_eq_of_speculate (hstays body) (ihbody hbody) htried
        exact (ih _ (hnext v) t).of_errors_eq herrors
  | many site initial round next ihround ih =>
    obtain ⟨hfail, hround, hnext⟩ := hb
    exact blames_andThen hfail (repeatRounds_blames (fun a => hstays (round a))
      (fun a => ihround a (hround a)) steps initial s) fun a t => ih _ (hnext a) t
  | atLeastOne site initial round next ihround ih =>
    obtain ⟨hfail, hround, hnext⟩ := hb
    simp only [run]
    split
    · exact blames_report hfail rfl _ _
    · refine (ihround initial (hround initial) s).andThen hfail.exists_run fun a t => ?_
      exact blames_andThen hfail (repeatRounds_blames (fun a => hstays (round a))
        (fun a => ihround a (hround a)) steps a t) fun a t => ih _ (hnext a) t
  | choose site count alternatives blank next ihalt ih =>
    obtain ⟨hfail, halt, hnext⟩ := hb
    simp only [run]
    split
    · split
      · exact blames_andThen hfail (ihalt _ (halt _) s) fun v t => ih _ (hnext v) t
      · exact blames_report hfail rfl _ _
    · cases htried : firstOf (fun i s => (alternatives i).run input find invoke steps s)
          (List.finRange count) s with
      | unfinished => exact .unfinished s
      | finished v t =>
        have herrors := errors_eq_of_firstOf (fun i => hstays (alternatives i))
          (fun i => ihalt i (halt i)) htried
        cases v with
        | none => exact blames_report hfail herrors _ _
        | some a => exact (ih _ (hnext a) t).of_errors_eq herrors
  | action event next ih => exact (ih hb { s with log := s.log ++ [event] }).of_errors_eq rfl
  | lookahead number next ih => exact ih _ (hb _) s
  | recording next ih => exact ih _ hb s
  | progress next ih => exact ih _ (hb _) s

/-! ## Rules -/

theorem enterRule_blames (hrecovery : input.recovery = false)
    (hrules : ∀ rule ∈ rules, rule.body.Propagates) (hkeeps : ∀ r s, (invoke r s).Keeps s)
    (hinvoke : ∀ r s, (invoke r s).Blames s) (r : RuleId) (s : Recognition) :
    (enterRule rules input invoke steps r s).Blames s := by
  unfold enterRule
  split
  · exact .unfinished s
  · next rule hrule =>
    have hbody : (rule.body.run input (ruleId? rules) invoke steps
        { s with stack := r :: s.stack }).Blames { s with stack := r :: s.stack } :=
      Body.run_blames hrecovery hkeeps hinvoke rule.body
        (hrules rule (List.mem_of_getElem? hrule)) _
    refine Outcome.Blames.andThen (hbody.of_errors_eq rfl) (fun t => ⟨_, rfl, rfl⟩) fun v t => ?_
    exact .value v rfl

/-- **Without recovery a rule leaves one error if it fails, and none otherwise.** -/
theorem invokeRule_blames (hrecovery : input.recovery = false)
    (hrules : ∀ rule ∈ rules, rule.body.Propagates) (steps : Nat) (r : RuleId)
    (s : Recognition) : (invokeRule rules input steps r s).Blames s := by
  induction steps generalizing r s with
  | zero => exact .unfinished s
  | succ steps ih =>
    exact enterRule_blames hrecovery hrules (invokeRule_keeps rules input steps) ih r s

/-- A text without an error of the grammar has a value. -/
theorem isSome_of_recognizeWith (hrecovery : input.recovery = false)
    (hrules : ∀ rule ∈ rules, rule.body.Propagates) {start : RuleId} {v : Option τ}
    {t : Recognition} (h : recognizeWith rules input steps start = .finished v t)
    (herrors : t.errors = []) : v.isSome := by
  obtain ⟨w, u, hu, h⟩ := Outcome.andThen_eq_finished h
  cases w with
  | some w =>
    dsimp only at h
    split at h <;> cases h <;> rfl
  | none =>
    cases h
    obtain ⟨e, he⟩ := (invokeRule_blames hrecovery hrules steps start .start).2 t hu
    simp [herrors] at he

end

end Palette
