import Palette.Proofs.Observable.Enrollment

/-!
# Ended subscriptions

A write calls the listeners that were there when it was made, one after the other, and each of them
may subscribe, dispose of anything and write again before the next one is called; the listeners of
a write made meanwhile come first. A run is then a list of events: calls, whoever makes them, and
invocations of the listener that is due next. Writes nest to any depth, so what is due is a stack.

A subscription that has ended is not listed again (`Custody.Over`), and nobody is called on account
of it by a write made after that. A write that was under way before goes on with the listeners that
it set out with, those included that are over by now; it comes to each of them once.

Main statement: `Stage.silent_after_end`.
-/

namespace Palette

variable {α L : Type _}

open Registry List

namespace Custody

variable {c : Custody α L} {call : RegistryCall α L} {roster : List (Enrolled L)}
  {s : Subscription}

/-! ## Subscriptions that are over -/

/-- A subscription that was given out and is not listed any more. -/
structure Over (c : Custody α L) (s : Subscription) : Prop where
  issued : c.registry.Issued s
  unlisted : ∀ {o}, c.registry.observable? s.observable = some o →
    ∀ l ∈ o.listeners, l.1 ≠ s.number

/-- What begins has a number of its own, so what is over stays so. -/
theorem Over.step (h : c.Over s) (call : RegistryCall α L) : (c.step call).Over s where
  issued := issued_step h.issued
  unlisted := by
    intro o' ho' l hl hnumber
    obtain ⟨-, hnone⟩ | ⟨o, ho, -, hlisteners⟩ := listeners_step ho'
    · simp [hnone] at hl
    · rw [hlisteners] at hl
      obtain hbefore | hbegun := List.mem_append.mp hl
      · exact h.unlisted ho l (List.mem_of_mem_filter hbefore) hnumber
      · obtain ⟨e, he, rfl⟩ := List.mem_map.mp hbegun
        obtain ⟨hbegun, hid⟩ : c.begun? call = some e ∧
            e.subscription.observable = s.observable := by simpa [begunWith] using he
        have hsame : e.subscription = s := congrArg₂ Subscription.mk hid hnumber
        exact not_issued_of_begun? hbegun (hsame ▸ h.issued)

/-- A call that ends a subscription takes it from the list. -/
theorem Agrees.over_of_mem_ended (h : Agrees c roster) (hs : s ∈ c.ended call) :
    (c.step call).Over s where
  issued := by
    cases hended : c.ended? call with
    | none => simp [ended, hended] at hs
    | some holder =>
      rw [ended, hended, Option.elim_some, h.subscriptionsOf_of_ended? hended] at hs
      obtain ⟨e, he, rfl⟩ := List.mem_map.mp hs
      exact issued_step (h.issued e (List.mem_of_mem_filter he))
  unlisted := by
    intro o' ho' l hl hnumber
    have hbegun : c.begun? call = none := by
      cases hbegun : c.begun? call with
      | none => rfl
      | some e => simp [ended, ended?_of_begun? hbegun] at hs
    obtain ⟨-, hnone⟩ | ⟨o, -, -, hlisteners⟩ := observable?_step_of_not_begun? hbegun ho'
    · simp [hnone] at hl
    · rw [hlisteners] at hl
      have hkept : (⟨s.observable, l.1⟩ : Subscription) ∉ c.ended call := by
        simpa using (List.mem_filter.mp hl).2
      exact hkept (hnumber ▸ hs)

end Custody

/-! ## Runs with invocations -/

/-- A listener called, or to be called, by a write. -/
structure Invocation (L : Type _) where
  subscription : Subscription
  listener : L
  /-- How many events there were before the write. -/
  write : Nat

/-- What happens: a call is made, or the listener that is due next is invoked. -/
inductive Event (α L : Type _) where
  | call (call : RegistryCall α L)
  | invoke

/-- A registry in use, with the writes that are under way. -/
structure Stage (α L : Type _) where
  custody : Custody α L
  /-- The invocations that are due, next first. -/
  due : List (Invocation L)
  /-- The invocations made, oldest first. -/
  done : List (Invocation L)
  /-- How many events there were. -/
  clock : Nat

namespace Custody

/-- Whom a call sets out to invoke: those whom a write returns, each with the subscription that it
was listed for. -/
def notified (c : Custody α L) (clock : Nat) : RegistryCall α L → List (Invocation L)
  | .write id change =>
    match c.registry.observable? id, c.registry.write? id change.apply with
    | some o, some w =>
      List.zipWith (fun l listener => ⟨⟨id, l.1⟩, listener, clock⟩) o.listeners w.called
    | _, _ => []
  | _ => []

end Custody

namespace Stage

/-- Nothing yet. -/
def empty : Stage α L := ⟨.empty, [], [], 0⟩

/-- What comes of an event. -/
def step (st : Stage α L) : Event α L → Stage α L
  | .call call =>
    { custody := st.custody.step call, due := st.custody.notified st.clock call ++ st.due,
      done := st.done, clock := st.clock + 1 }
  | .invoke =>
    { st with due := st.due.tail, done := st.done ++ st.due.head?.toList, clock := st.clock + 1 }

/-- What comes of events one after the other. -/
def run (st : Stage α L) (events : List (Event α L)) : Stage α L := events.foldl step st

/-- What comes of events when there is nothing yet. -/
def reached (events : List (Event α L)) : Stage α L := empty.run events

@[simp] theorem reached_concat (events : List (Event α L)) (event : Event α L) :
    reached (events ++ [event]) = (reached events).step event := by
  simp [reached, run]

theorem reached_append (events more : List (Event α L)) :
    reached (events ++ more) = (reached events).run more := by
  simp [reached, run]

theorem clock_reached (events : List (Event α L)) : (reached events).clock = events.length := by
  induction events using List.reverseRecOn with
  | nil => rfl
  | append_singleton events event ih => cases event <;> simp [step, ih]

end Stage

/-! ## Where invocations come from -/

namespace Custody

variable {c : Custody α L} {call : RegistryCall α L} {roster : List (Enrolled L)}
  {s : Subscription}

theorem notified_write {id : ObservableId} {o : Observable α L} (clock : Nat) (change : Change α)
    (ho : c.registry.observable? id = some o) :
    c.notified clock (.write id change) =
      if change.notifies o.value then o.listeners.map fun l => ⟨⟨id, l.1⟩, l.2, clock⟩ else [] := by
  simp only [notified, ho, write?, Option.map_some, Change.called_apply]
  split
  next => simp [List.zipWith_map_right, List.zipWith_self]
  next => simp

theorem exists_of_mem_notified {clock : Nat} {i : Invocation L} (hi : i ∈ c.notified clock call) :
    ∃ id change o, call = .write id change ∧ c.registry.observable? id = some o ∧
      i.write = clock ∧ i.subscription.observable = id ∧
      (i.subscription.number, i.listener) ∈ o.listeners := by
  cases call with
  | write id change =>
    cases ho : c.registry.observable? id with
    | none => simp [notified, ho] at hi
    | some o =>
      rw [notified_write clock change ho] at hi
      split at hi
      next =>
        obtain ⟨l, hl, rfl⟩ := List.mem_map.mp hi
        exact ⟨id, change, o, rfl, ho, rfl, rfl, hl⟩
      next => simp at hi
  | _ => simp [notified] at hi

theorem Over.notified_ne (h : c.Over s) {clock : Nat} {i : Invocation L}
    (hi : i ∈ c.notified clock call) : i.subscription ≠ s := by
  rintro rfl
  obtain ⟨id, change, o, -, ho, -, rfl, hl⟩ := exists_of_mem_notified hi
  exact h.unlisted ho _ hl rfl

/-- A write goes to every subscription once. -/
theorem Agrees.notified_nodup (h : Agrees c roster) (clock : Nat) (call : RegistryCall α L) :
    ((c.notified clock call).map (·.subscription)).Nodup := by
  cases call with
  | write id change =>
    cases ho : c.registry.observable? id with
    | none => simp [notified, ho]
    | some o =>
      rw [notified_write clock change ho]
      split
      next =>
        have hsubscriptions : (o.listeners.map fun l => (⟨id, l.1⟩ : Subscription)) =
            (roster.filter (·.subscription.observable = id)).map (·.subscription) := by
          rw [h.listeners ho, List.map_map]
          refine List.map_congr_left fun e he => ?_
          have hid : e.subscription.observable = id := by simpa using (List.mem_filter.mp he).2
          simp [Enrolled.listing, ← hid]
        rw [List.map_map, Function.comp_def, hsubscriptions]
        exact h.distinct.sublist (List.filter_sublist.map _)
      next => exact .nil
  | _ => exact .nil

end Custody

namespace Stage

/-- An invocation of a write that was made, on account of a subscription listed at that time. -/
def Underway (events : List (Event α L)) (i : Invocation L) : Prop :=
  ∃ before after id change o, events = before ++ .call (.write id change) :: after ∧
    i.write = before.length ∧ i.subscription.observable = id ∧
    (reached before).custody.registry.observable? id = some o ∧
    (i.subscription.number, i.listener) ∈ o.listeners

theorem Underway.append {events : List (Event α L)} {i : Invocation L} (h : Underway events i)
    (more : List (Event α L)) : Underway (events ++ more) i := by
  obtain ⟨before, after, id, change, o, rfl, hrest⟩ := h
  exact ⟨before, after ++ more, id, change, o, by simp, hrest⟩

theorem Underway.write_lt {events : List (Event α L)} {i : Invocation L} (h : Underway events i) :
    i.write < events.length := by
  obtain ⟨before, after, id, change, o, rfl, hwrite, -⟩ := h
  simp [hwrite]

/-- An invocation takes what is due to what is done and leaves both together as they were. -/
theorem done_append_due_invoke (st : Stage α L) :
    (st.step .invoke).done ++ (st.step .invoke).due = st.done ++ st.due := by
  cases h : st.due <;> simp [step, h]

/-- Whoever is invoked, or to be invoked, was listed when a write was made. -/
theorem underway_of_mem (events : List (Event α L)) :
    ∀ i ∈ (reached events).done ++ (reached events).due, Underway events i := by
  induction events using List.reverseRecOn with
  | nil => simp [reached, run, empty]
  | append_singleton events event ih =>
    intro i hi
    rw [reached_concat] at hi
    cases event with
    | invoke =>
      rw [done_append_due_invoke] at hi
      exact (ih i hi).append _
    | call call =>
      simp only [step, List.mem_append] at hi
      obtain hdone | hnotified | hdue := hi
      · exact (ih i (List.mem_append_left _ hdone)).append _
      · obtain ⟨id, change, o, rfl, ho, hwrite, hid, hlisted⟩ :=
          Custody.exists_of_mem_notified hnotified
        rw [clock_reached] at hwrite
        exact ⟨events, [], id, change, o, rfl, hwrite, hid, ho, hlisted⟩
      · exact (ih i (List.mem_append_right _ hdue)).append _

/-- The tables agree with a roster at any time, whoever makes the calls. -/
theorem exists_agrees (events : List (Event α L)) :
    ∃ roster, (reached events).custody.Agrees roster := by
  induction events using List.reverseRecOn with
  | nil => exact ⟨[], Custody.agrees_empty⟩
  | append_singleton events event ih =>
    obtain ⟨roster, h⟩ := ih
    rw [reached_concat]
    cases event with
    | invoke => exact ⟨roster, h⟩
    | call call => exact ⟨_, h.step call⟩

/-- One write invokes nobody twice on account of one subscription. -/
theorem invocations_nodup (events : List (Event α L)) :
    (((reached events).done ++ (reached events).due).map fun i =>
      (i.write, i.subscription)).Nodup := by
  induction events using List.reverseRecOn with
  | nil => simp [reached, run, empty]
  | append_singleton events event ih =>
    rw [reached_concat]
    cases event with
    | invoke => rwa [done_append_due_invoke]
    | call call =>
      obtain ⟨roster, hagrees⟩ := exists_agrees events
      have horder : (reached events).done ++
          ((reached events).custody.notified (reached events).clock call ++ (reached events).due) ~
          (reached events).custody.notified (reached events).clock call ++
            ((reached events).done ++ (reached events).due) := List.perm_append_comm_assoc ..
      simp only [step]
      rw [(horder.map _).nodup_iff, List.map_append]
      refine List.Nodup.append ?_ ih ?_
      · refine .of_map Prod.snd ?_
        rw [List.map_map]
        exact hagrees.notified_nodup _ call
      · -- what is due already is due by writes before this one
        intro key hnew hold
        obtain ⟨i, hi, rfl⟩ := List.mem_map.mp hnew
        obtain ⟨j, hj, hsame⟩ := List.mem_map.mp hold
        obtain ⟨-, -, -, -, -, hwrite, -⟩ := Custody.exists_of_mem_notified hi
        have hlt := (underway_of_mem events j hj).write_lt
        rw [(Prod.mk.inj hsame).1, hwrite, clock_reached] at hlt
        exact Nat.lt_irrefl _ hlt

/-- What is over is not due any more by a write made from then on. -/
theorem run_of_over {s : Subscription} (events : List (Event α L)) {st : Stage α L}
    (h : st.custody.Over s) :
    ∃ since, (st.run events).done = st.done ++ since ∧
      ∀ i ∈ since, i.subscription = s → i ∈ st.due := by
  induction events generalizing st with
  | nil => exact ⟨[], by simp [run], by simp⟩
  | cons event events ih =>
    cases event with
    | invoke =>
      obtain ⟨since, hdone, hdue⟩ := @ih (st.step .invoke) h
      refine ⟨st.due.head?.toList ++ since, hdone.trans (List.append_assoc ..), fun i hi hs => ?_⟩
      obtain hhead | hsince := List.mem_append.mp hi
      · exact List.mem_of_mem_head? (by simpa using hhead)
      · exact List.mem_of_mem_tail (hdue i hsince hs)
    | call call =>
      obtain ⟨since, hdone, hdue⟩ := @ih (st.step (.call call)) (h.step call)
      refine ⟨since, hdone, fun i hi hs => ?_⟩
      obtain hnotified | hbefore := List.mem_append.mp (hdue i hi hs)
      · exact absurd hs (h.notified_ne hnotified)
      · exact hbefore

/-- When a call ends a subscription, its listener is invoked on account of it only by writes that
were under way at that moment, begun when the subscription was listed, and by each of them at most
once. -/
theorem silent_after_end (earlier later : List (Event α L)) (call : RegistryCall α L)
    (s : Subscription) (hended : s ∈ (reached earlier).custody.ended call) :
    ∃ since,
      (reached (earlier ++ .call call :: later)).done = (reached earlier).done ++ since ∧
      (∀ i ∈ since, i.subscription = s → i ∈ (reached earlier).due ∧ Underway earlier i) ∧
      (since.map fun i => (i.write, i.subscription)).Nodup := by
  obtain ⟨roster, hagrees⟩ := exists_agrees earlier
  have hover : ((reached earlier).step (.call call)).custody.Over s :=
    hagrees.over_of_mem_ended hended
  obtain ⟨since, hdone, hdue⟩ := run_of_over later hover
  have hreached : reached (earlier ++ .call call :: later) =
      ((reached earlier).step (.call call)).run later := by
    rw [reached_append]
    rfl
  have hnodup := invocations_nodup (earlier ++ .call call :: later)
  rw [← hreached] at hdone
  refine ⟨since, hdone, fun i hi hs => ?_, ?_⟩
  · have hmem : i ∈ (reached earlier).due := by
      obtain hnotified | hbefore := List.mem_append.mp (hdue i hi hs)
      · -- what ends a subscription is no write
        obtain ⟨id, change, o, rfl, -⟩ := Custody.exists_of_mem_notified hnotified
        simp [Custody.ended, Custody.ended?] at hended
      · exact hbefore
    exact ⟨hmem, underway_of_mem earlier i (List.mem_append_right _ hmem)⟩
  · refine hnodup.sublist (List.Sublist.map _ ?_)
    rw [hdone, List.append_assoc]
    exact (List.sublist_append_left _ _).trans (List.sublist_append_right _ _)

/-- With no write under way, a subscription that is disposed of is silent from then on. -/
theorem silent_after_end_idle :
    ∃ since : List (Invocation Nat),
      (reached [.call (.create 0), .call (.subscribe 0 7), .call (.subscribe 0 8),
        .call (.write 0 (.set 1)), .invoke, .invoke, .call (.dispose 1),
        .call (.write 0 (.set 2)), .invoke, .invoke]).done =
          [⟨⟨0, 1⟩, 7, 3⟩, ⟨⟨0, 2⟩, 8, 3⟩] ++ since ∧
      ∀ i ∈ since, i.subscription ≠ ⟨0, 2⟩ := by
  obtain ⟨since, hdone, hdue, -⟩ := silent_after_end
    [.call (.create 0), .call (.subscribe 0 7), .call (.subscribe 0 8),
      .call (.write 0 (.set 1)), .invoke, .invoke]
    [.call (.write 0 (.set 2)), .invoke, .invoke] (.dispose 1) ⟨0, 2⟩ (by decide)
  exact ⟨since, hdone, fun i hi hs => List.not_mem_nil (hdue i hi hs).1⟩

/-- Two listen, and the first one, when it is called, disposes of the other's subscription. That
other listener is called on account of it all the same, by the write that is under way. -/
theorem not_silent_after_dispose :
    ¬ ∀ (earlier later : List (Event Nat Nat)) (call : RegistryCall Nat Nat) (s : Subscription)
        (since : List (Invocation Nat)), s ∈ (reached earlier).custody.ended call →
        (reached (earlier ++ .call call :: later)).done = (reached earlier).done ++ since →
        ∀ i ∈ since, i.subscription ≠ s := by
  intro h
  refine h [.call (.create 0), .call (.subscribe 0 7), .call (.subscribe 0 8),
    .call (.write 0 (.set 1)), .invoke] [.invoke] (.dispose 1) ⟨0, 2⟩ [⟨⟨0, 2⟩, 8, 3⟩]
    (by decide) rfl _ (List.mem_singleton.mpr rfl) rfl

end Stage

end Palette
