import Palette.Grammar.Recognizer

/-!
# Runs with more steps

The number of steps that a run is given only cuts it off. One run is below another when the
other ends in the same way wherever the one ends at all; every way to put a run together from
smaller ones respects this order, so a body that is given more steps and better rules to invoke
gives the same outcome or a first one.

Main statements: `Body.run_below` and `invokeRule_below`.
-/

namespace Palette

namespace Outcome

variable {α β : Type}

/-- What ends behind something else begins where that ended. -/
theorem andThen_eq_finished {o : Outcome α} {next : Option α → Recognition → Outcome β}
    {v : Option β} {s : Recognition} (h : o.andThen next = finished v s) :
    ∃ (w : Option α) (t : Recognition), o = finished w t ∧ next w t = finished v s := by
  cases o with
  | finished w t => exact ⟨w, t, rfl, h⟩
  | unfinished => cases h

/-- Where the first ends, the second ends in the same way. -/
def Below (o o' : Outcome α) : Prop := ∀ v s, o = finished v s → o' = finished v s

theorem Below.refl (o : Outcome α) : o.Below o := fun _ _ h => h

theorem below_of_unfinished (o : Outcome α) : (unfinished : Outcome α).Below o := nofun

theorem Below.andThen {o o' : Outcome α} {next next' : Option α → Recognition → Outcome β}
    (h : o.Below o') (hnext : ∀ v s, (next v s).Below (next' v s)) :
    (o.andThen next).Below (o'.andThen next') := by
  intro v s hv
  obtain ⟨w, t, rfl, hw⟩ := andThen_eq_finished hv
  rw [h w t rfl]
  exact hnext w t v s hw

/-- Whether the run came to its end. -/
def Ends (o : Outcome α) : Prop := ∃ v s, o = finished v s

theorem Ends.andThen {o : Outcome α} {next : Option α → Recognition → Outcome β} (h : o.Ends)
    (hnext : ∀ v s, o = finished v s → (next v s).Ends) : (o.andThen next).Ends := by
  obtain ⟨v, s, rfl⟩ := h
  exact hnext v s rfl

end Outcome

/-! ## The parts of a run -/

section

variable {α σ ι : Type}

theorem speculate_below {run run' : Recognition → Outcome α}
    (h : ∀ s, (run s).Below (run' s)) (s : Recognition) :
    (speculate run s).Below (speculate run' s) :=
  (h _).andThen fun _ _ => .refl _

theorem repeatRounds_below {input : RecognizerInput} {site : Site}
    {round round' : σ → Recognition → Outcome σ} (h : ∀ a s, (round a s).Below (round' a s))
    {n n' : Nat} (hn : n ≤ n') (a : σ) (s : Recognition) :
    (repeatRounds input site round n a s).Below (repeatRounds input site round' n' a s) := by
  induction n generalizing n' a s with
  | zero => exact Outcome.below_of_unfinished _
  | succ n ih =>
    obtain ⟨n', rfl⟩ : ∃ m, n' = m + 1 := ⟨n' - 1, by omega⟩
    simp only [repeatRounds]
    split
    · split
      · refine (h a s).andThen fun v s' => ?_
        split
        · exact .refl _
        · split
          · exact .refl _
          · exact ih (by omega) _ _
      · exact .refl _
    · refine (speculate_below (h a) s).andThen fun v s' => ?_
      split
      · exact .refl _
      · split
        · exact .refl _
        · exact ih (by omega) _ _

theorem firstOf_below {run run' : ι → Recognition → Outcome α}
    (h : ∀ i s, (run i s).Below (run' i s)) (l : List ι) (s : Recognition) :
    (firstOf run l s).Below (firstOf run' l s) := by
  induction l generalizing s with
  | nil => exact .refl _
  | cons i rest ih =>
    refine (speculate_below (h i) s).andThen fun v s' => ?_
    cases v with
    | none => exact ih s'
    | some a => exact .refl _

end

/-! ## Bodies and rules -/

section

variable {τ α : Type} {input : RecognizerInput} {find : String → Option RuleId}
  {invoke invoke' : RuleId → Recognition → Outcome τ} {n n' : Nat}

/-- **More steps and better rules to invoke keep what a body came to.** -/
theorem Body.run_below (h : ∀ r s, (invoke r s).Below (invoke' r s)) (hn : n ≤ n')
    (b : Body τ α) (s : Recognition) :
    (b.run input find invoke n s).Below (b.run input find invoke' n' s) := by
  induction b generalizing s with
  | done a => exact .refl _
  | fail => exact .refl _
  | consume kind next ih => exact ih _ _
  | subrule name next ih =>
    simp only [run]
    split
    · exact ih _ _
    · exact (h _ s).andThen fun v s' => ih v s'
  | option site body next ihbody ih =>
    simp only [run]
    split
    · split
      · exact (ihbody s).andThen fun v s' => ih _ s'
      · exact ih _ s
    · exact (speculate_below ihbody s).andThen fun v s' => ih _ s'
  | many site initial round next ihround ih =>
    exact (repeatRounds_below ihround hn initial s).andThen fun v s' => ih v s'
  | atLeastOne site initial round next ihround ih =>
    simp only [run]
    split
    · exact ih _ _
    · refine (ihround initial s).andThen fun v s' => ?_
      cases v with
      | none => exact ih _ s'
      | some a => exact (repeatRounds_below ihround hn a s').andThen fun v s' => ih v s'
  | choose site count alternatives blank next ihalt ih =>
    simp only [run]
    split
    · split
      · exact (ihalt _ s).andThen fun v s' => ih v s'
      · exact ih _ _
    · refine (firstOf_below ihalt _ s).andThen fun v s' => ?_
      cases v with
      | none => exact ih _ _
      | some a => exact ih _ s'
  | action event next ih => exact ih _
  | lookahead number next ih => exact ih _ s
  | recording next ih => exact ih _ s
  | progress next ih => exact ih _ s

theorem enterRule_below {rules : List (RuleDef τ)} (h : ∀ r s, (invoke r s).Below (invoke' r s))
    (hn : n ≤ n') (r : RuleId) (s : Recognition) :
    (enterRule rules input invoke n r s).Below (enterRule rules input invoke' n' r s) := by
  unfold enterRule
  split
  · exact .refl _
  · exact (Body.run_below h hn _ _).andThen fun v s' => .refl _

/-- **A rule that comes to its end comes to the same end with more steps.** -/
theorem invokeRule_below (rules : List (RuleDef τ)) (input : RecognizerInput) (hn : n ≤ n')
    (r : RuleId) (s : Recognition) :
    (invokeRule rules input n r s).Below (invokeRule rules input n' r s) := by
  induction n generalizing n' r s with
  | zero => exact Outcome.below_of_unfinished _
  | succ n ih =>
    obtain ⟨n', rfl⟩ : ∃ m, n' = m + 1 := ⟨n' - 1, by omega⟩
    exact enterRule_below (fun r s => ih (by omega) r s) (by omega) r s

theorem recognizeWith_below (rules : List (RuleDef τ)) (input : RecognizerInput) (hn : n ≤ n')
    (start : RuleId) :
    (recognizeWith rules input n start).Below (recognizeWith rules input n' start) :=
  (invokeRule_below rules input hn start .start).andThen fun _ _ => .refl _

/-- All recognitions that come to an end come to the same one. -/
theorem recognizeWith_unique {rules : List (RuleDef τ)} {start : RuleId} {v v' : Option τ}
    {s s' : Recognition} (h : recognizeWith rules input n start = .finished v s)
    (h' : recognizeWith rules input n' start = .finished v' s') : v = v' ∧ s = s' := by
  have hmore := recognizeWith_below rules input (Nat.le_max_left n n') start v s h
  have hmore' := recognizeWith_below rules input (Nat.le_max_right n n') start v' s' h'
  obtain ⟨rfl, rfl⟩ := Outcome.finished.inj (hmore.symm.trans hmore')
  exact ⟨rfl, rfl⟩

end

end Palette
