import Palette.Proofs.Extractor.Course
import Palette.Proofs.Observable.Enrollment

/-!
# What others can see of an extraction

State, published phase and the mark that it is over are kept apart. Calls change the state in one
place and the other two in another, and some calls change nothing that can be seen: the first
offer after a stop, the end of a generator that was stopped, a second start.

What a call does to them is said once (`Extractor.Publishes`): the phase takes the value that goes
with the new state, and those who listen to it are called if this is another value than before.
Hooks come and go between the calls. Seen as a registry with one observable, the phase and its hooks
are under the laws of all registries, so that every hook that watches is listed once.

Main statements: `Extractor.publishes_respond` and `Watched.phase_published`.
-/

namespace Palette

variable {α T L : Type _}

/-! ## Listeners called -/

/-- The listener that is called. -/
def Effect.listener? : Effect α T L → Option L
  | call listener => some listener
  | _ => none

/-- The listeners called, in order. -/
def listenersCalled (effects : List (Effect α T L)) : List L :=
  effects.filterMap Effect.listener?

section

variable (effects effects' : List (Effect α T L)) (listeners : List L) (held : Option (α × T))

@[simp] theorem listenersCalled_append :
    listenersCalled (effects ++ effects') = listenersCalled effects ++ listenersCalled effects' :=
  List.filterMap_append

@[simp] theorem listenersCalled_calls :
    listenersCalled (listeners.map .call : List (Effect α T L)) = listeners := by
  induction listeners with
  | nil => rfl
  | cons l _ ih => exact congrArg (l :: ·) ih

@[simp] theorem listenersCalled_release :
    listenersCalled (Extractor.release held : List (Effect α T L)) = [] := by
  cases held <;> rfl

@[simp] theorem listenersCalled_discard :
    listenersCalled (Extractor.discard held : List (Effect α T L)) = [] := by
  cases held <;> rfl

end

/-! ## What a call publishes -/

theorem Extraction.phase_eq_stopped_iff {s : Extraction α T} :
    s.phase = .stopped ↔ ∃ informed, s = .stopped informed := by
  cases s <;> simp [phase]

namespace Extractor

/-- What can be seen goes with the state. -/
structure Published (x : Extractor α T L) : Prop where
  phase : x.phase.value = x.state.phase
  completed : x.completed = true ↔ x.state.phase = .stopped

/-- The step from one extractor to another publishes the new state: the phase takes its value, its
listeners stay, and they are called, once each and in order, if the value is another one. -/
structure Publishes (x x' : Extractor α T L) (effects : List (Effect α T L)) : Prop where
  phase : x'.phase = { x.phase with value := x'.state.phase }
  completed : x'.completed = true ↔ x'.state.phase = .stopped
  called : listenersCalled effects =
    if x'.state.phase = x.phase.value then [] else x.phase.listeners.map (·.2)

variable {x x' : Extractor α T L} {effects : List (Effect α T L)} {s : Extraction α T}

theorem Publishes.published (h : Publishes x x' effects) : x'.Published :=
  ⟨by rw [h.phase], h.completed⟩

/-- Effects that call nobody may stand in front. -/
theorem Publishes.before (h : Publishes x x' effects) (more : List (Effect α T L))
    (hmore : listenersCalled more = []) : Publishes x x' (more ++ effects) :=
  ⟨h.phase, h.completed, by rw [listenersCalled_append, hmore, List.nil_append, h.called]⟩

/-- Effects that call nobody may stand behind. -/
theorem Publishes.behind (h : Publishes x x' effects) (more : List (Effect α T L))
    (hmore : listenersCalled more = []) : Publishes x x' (effects ++ more) :=
  ⟨h.phase, h.completed, by rw [listenersCalled_append, hmore, List.append_nil, h.called]⟩

/-- What leaves phase and mark alone publishes a state of the same phase. -/
theorem Published.publishes (h : x.Published) (hs : s.phase = x.state.phase)
    (heffects : listenersCalled effects = []) : Publishes x { x with state := s } effects where
  phase := by rw [hs, ← h.phase]
  completed := by rw [hs, ← h.completed]
  called := by rw [heffects, if_pos (hs.trans h.phase.symm)]

theorem phase_enter (x : Extractor α T L) (s : Extraction α T) :
    (x.enter s).1.phase = { x.phase with value := s.phase } := by
  unfold enter publish Observable.updateWhen
  dsimp only
  split <;> rfl

theorem listenersCalled_enter (x : Extractor α T L) (s : Extraction α T) :
    listenersCalled (x.enter s).2 =
      if s.phase = x.phase.value then [] else x.phase.listeners.map (·.2) := by
  unfold enter publish
  rw [listenersCalled_calls, Observable.called_updateWhen, Observable.result_updateWhen]
  by_cases hsame : x.phase.value = s.phase
  · simp [hsame]
  · simp [hsame, Ne.symm hsame]

/-- To go over to a state that is not final is to publish it. -/
theorem publishes_enter (h : x.completed = false) (hs : s.phase ≠ .stopped) :
    Publishes x (x.enter s).1 (x.enter s).2 where
  phase := phase_enter x s
  completed := iff_of_false (by rw [show (x.enter s).1.completed = x.completed from rfl, h]; decide)
    hs
  called := listenersCalled_enter x s

/-- To go over to a final state is to publish it. -/
theorem publishes_finish (x : Extractor α T L) (informed : Bool) :
    Publishes x (x.finish informed).1 (x.finish informed).2 where
  phase := phase_enter x (.stopped informed)
  completed := iff_of_true rfl rfl
  called := by
    have hcalled := listenersCalled_enter x (.stopped informed)
    show listenersCalled ((x.enter (.stopped informed)).2 ++ [.complete]) = _
    rw [listenersCalled_append, hcalled]
    exact List.append_nil _

theorem Published.completed_eq_false (h : x.Published) (hs : x.state.phase ≠ .stopped) :
    x.completed = false := by
  rw [← Bool.not_eq_true, h.completed]
  exact hs

/-- **Every call publishes the state that it leaves.** -/
theorem publishes_respond (h : x.Published) (ticket : T) (call : ExtractorCall α) :
    Publishes x (x.respond ticket call).1 (x.respond ticket call).2 := by
  have hsame : Publishes x x [] := h.publishes (s := x.state) rfl rfl
  have hopen := h.completed_eq_false
  obtain ⟨state, phase, completed⟩ := x
  cases call with
  | start inRuntime =>
    cases state with
    | notStarted =>
      cases inRuntime with
      | false => exact hsame
      | true => exact (publishes_enter (s := .running) (hopen nofun) nofun).behind [.launch] rfl
    | running => exact publishes_enter (hopen nofun) nofun
    | paused held =>
      exact (publishes_enter (s := .running) (hopen nofun) nofun).behind _
        (listenersCalled_release held)
    | stopped informed => exact hsame
  | pause =>
    cases state with
    | running => exact publishes_enter (hopen nofun) nofun
    | notStarted | paused held | stopped informed => exact hsame
  | stop =>
    cases state with
    | notStarted | running => exact publishes_finish _ false
    | paused held =>
      exact (publishes_finish _ held.isSome).before _ (listenersCalled_discard held)
    | stopped informed => exact hsame
  | offer item =>
    cases state with
    | notStarted | running => exact h.publishes rfl rfl
    | paused held => cases held <;> exact h.publishes (s := .paused (some (item, ticket))) rfl rfl
    | stopped informed =>
      cases informed with
      | false => exact h.publishes (s := .stopped true) rfl rfl
      | true => exact hsame
  | generatorEnds => exact (publishes_finish _ true).before _ (listenersCalled_discard _)

/-- A start that fails changes nothing and has no effects. -/
theorem respond_of_start_error {inRuntime : Bool} {e : StartError}
    (h : x.start inRuntime = .error e) (ticket : T) :
    x.respond ticket (.start inRuntime) = (x, []) := by
  rw [respond, h]

end Extractor

/-- A start that fails changes nothing. -/
theorem Course.next_of_start_error {c : Course α L} {inRuntime : Bool} {e : StartError}
    (h : c.extractor.start inRuntime = .error e) : c.next (.start inRuntime) = c := by
  have hrespond := Extractor.respond_of_start_error h c.offers.length
  show Course.mk (c.extractor.respond c.offers.length (.start inRuntime)).1 (c.offers ++ [])
    (c.effects ++ (c.extractor.respond c.offers.length (.start inRuntime)).2) = c
  rw [hrespond, List.append_nil, List.append_nil]

/-! ## Hooks on the phase -/

/-- What is done with a hook: it is made, the phase is read through it, it is disposed of, or it is
dropped. -/
inductive HookCall (L : Type _) where
  | make (callback : L)
  | read (hook : HookId)
  | dispose (hook : HookId)
  | drop (hook : HookId)

/-- The phase among the observables of its registry, which are no others. -/
def phaseId : ObservableId := 0

/-- The call to the registry of the phase. -/
def HookCall.toRegistryCall : HookCall L → RegistryCall Phase L
  | make callback => .createHook callback
  | read hook => .read phaseId (some hook)
  | dispose hook => .disposeHook hook
  | drop hook => .dropHook hook

/-- What happens to an extraction whose phase is watched. -/
inductive WatchedCall (α L : Type _) where
  | extractor (call : ExtractorCall α)
  | hook (call : HookCall L)

/-- A course with the hooks that the phase is read through. -/
structure Watched (α L : Type _) where
  course : Course α L
  hooks : List (Option (Hook L))

namespace Watched

/-- Before the first call, and without hooks. -/
def initial : Watched α L := ⟨.initial (.of .notStarted), []⟩

/-- The phase and the hooks as a registry, of which no subscription was given out. -/
def custody (w : Watched α L) : Custody Phase L :=
  ⟨⟨[some w.course.extractor.phase], w.hooks⟩, []⟩

/-- How far it has come after one more call. -/
def next (w : Watched α L) : WatchedCall α L → Watched α L
  | .extractor call => { w with course := w.course.next call }
  | .hook call =>
    let registry := (w.custody.step call.toRegistryCall).registry
    let phase := (registry.observable? phaseId).getD w.course.extractor.phase
    { course := { w.course with extractor := { w.course.extractor with phase } },
      hooks := registry.hooks }

/-- How far it has come after some calls. -/
def run (calls : List (WatchedCall α L)) : Watched α L := calls.foldl next initial

@[simp] theorem run_concat (calls : List (WatchedCall α L)) (call : WatchedCall α L) :
    run (calls ++ [call]) = (run calls).next call := by
  simp [run]

end Watched

/-! ### The phase stays alone in its registry -/

namespace Registry

/-- There is one observable, and it has the value. -/
def Sole (r : Registry α L) (value : α) : Prop := ∃ o, r.observables = [some o] ∧ o.value = value

variable {r : Registry α L} {value : α}

theorem Sole.put (h : r.Sole value) {id : ObservableId} {o o' : Observable α L}
    (ho : r.observable? id = some o) (hvalue : o'.value = o.value) : (r.put id o').Sole value := by
  obtain ⟨sole, hsole, rfl⟩ := h
  cases id with
  | zero =>
    obtain rfl : sole = o := by simpa [observable?, hsole] using ho
    exact ⟨o', by simp [Registry.put, hsole], hvalue⟩
  | succ id => simp [observable?, hsole] at ho

theorem Sole.unsubscribe (h : r.Sole value) (s : Subscription) : (r.unsubscribe s).Sole value := by
  unfold Registry.unsubscribe
  split
  next o ho => exact h.put ho rfl
  next => exact h

theorem Sole.foldl_unsubscribe (h : r.Sole value) (gone : List Subscription) :
    (gone.foldl Registry.unsubscribe r).Sole value := by
  induction gone generalizing r with
  | nil => exact h
  | cons s gone ih => exact ih (h.unsubscribe s)

theorem Sole.watch (h : r.Sole value) (hook : HookId) (id : ObservableId) :
    (r.watch hook id).Sole value := by
  unfold Registry.watch
  split
  next k o hhook ho =>
    split
    next => exact h
    next => exact h.put ho rfl
  next => exact h

theorem Sole.disposeHook (h : r.Sole value) (hook : HookId) : (r.disposeHook hook).Sole value := by
  unfold Registry.disposeHook
  split
  next k hhook => exact h.foldl_unsubscribe k.subscriptions
  next => exact h

end Registry

namespace Holder

/-- The hook that keeps the subscription, if it is one that does. -/
def hook? : Holder → Option HookId
  | handle _ => none
  | hook id => some id

theorem hook?_eq_some_iff {holder : Holder} {id : HookId} :
    holder.hook? = some id ↔ holder = .hook id := by
  cases holder <;> simp [hook?]

end Holder

namespace Watched

variable {w : Watched α L}

/-- What is done with hooks changes who listens to the phase, and not its value. -/
theorem sole_step (w : Watched α L) (call : HookCall L) :
    (w.custody.step call.toRegistryCall).registry.Sole w.course.extractor.phase.value := by
  have hsole : w.custody.registry.Sole w.course.extractor.phase.value := ⟨_, rfl, rfl⟩
  cases call with
  | make callback => exact hsole
  | read hook => exact hsole.watch hook phaseId
  | dispose hook => exact hsole.disposeHook hook
  | drop hook => exact hsole.disposeHook hook

theorem phase_next_hook (w : Watched α L) (call : HookCall L) :
    (w.next (.hook call)).course.extractor.phase.value = w.course.extractor.phase.value := by
  obtain ⟨o, hsole, hvalue⟩ := w.sole_step call
  simpa [next, Registry.observable?, hsole, phaseId] using hvalue

/-- What is done with hooks is done to the registry. -/
theorem custody_next_hook (w : Watched α L) (call : HookCall L) :
    (w.next (.hook call)).custody = w.custody.step call.toRegistryCall := by
  obtain ⟨o, hsole, -⟩ := w.sole_step call
  have hheld : (w.custody.step call.toRegistryCall).held = [] := by cases call <;> rfl
  have hphase : (w.custody.step call.toRegistryCall).registry.observable? phaseId = some o := by
    simp [Registry.observable?, hsole, phaseId]
  show Custody.mk ⟨[some (Option.getD _ _)], _⟩ [] = _
  rw [hphase, Option.getD_some, ← hsole, ← hheld]
  rfl

/-- What the extractor publishes is a write to the registry. -/
theorem custody_next_extractor (h : w.course.extractor.Published) (call : ExtractorCall α) :
    ∃ change, (w.next (.extractor call)).custody = w.custody.step (.write phaseId change) := by
  have hphase := (Extractor.publishes_respond h w.course.offers.length
    (w.course.numbered call)).phase
  refine ⟨.set (w.next (.extractor call)).course.state.phase, ?_⟩
  show Custody.mk ⟨[some (w.course.next call).extractor.phase], w.hooks⟩ [] = _
  rw [show (w.course.next call).extractor.phase = _ from hphase]
  rfl

/-- After any calls, what can be seen goes with the state, and the phase and its hooks are as some
calls to a registry leave them. -/
theorem exists_registryCalls (calls : List (WatchedCall α L)) :
    (run calls).course.extractor.Published ∧
      ∃ registryCalls, (run calls).custody = Custody.reached registryCalls := by
  induction calls using List.reverseRecOn with
  | nil => exact ⟨⟨rfl, iff_of_false nofun nofun⟩, [.create .notStarted], rfl⟩
  | append_singleton calls call ih =>
    obtain ⟨hpublished, registryCalls, hcustody⟩ := ih
    rw [run_concat]
    cases call with
    | extractor call =>
      obtain ⟨change, hwrite⟩ := custody_next_extractor hpublished call
      refine ⟨(Extractor.publishes_respond hpublished _ _).published,
        registryCalls ++ [.write phaseId change], ?_⟩
      rw [hwrite, hcustody, Custody.reached_concat]
    | hook call =>
      refine ⟨⟨?_, hpublished.completed⟩, registryCalls ++ [call.toRegistryCall], ?_⟩
      · exact ((run calls).phase_next_hook call).trans hpublished.phase
      · rw [custody_next_hook, hcustody, Custody.reached_concat]

/-! ### Who watches -/

/-- The hook with the given id. -/
def hook? (w : Watched α L) (id : HookId) : Option (Hook L) := w.hooks[id]?.join

section

variable {calls : List (WatchedCall α L)} {roster : List (Enrolled L)}
  (h : (run calls).custody.Agrees roster)
include h

/-- Whoever is enrolled is so with the phase, and through a hook. -/
theorem enrolled_through_hook : ∀ e ∈ roster,
    e.subscription.observable = phaseId ∧ ∃ hook, e.holder = .hook hook := by
  intro e he
  refine ⟨Nat.lt_one_iff.mp (h.issued e he).observable_lt, ?_⟩
  cases hholder : e.holder with
  | handle n => exact absurd (h.handed e he hholder) (Nat.not_lt_zero n)
  | hook hook => exact ⟨hook, rfl⟩

/-- No hook is enrolled twice. -/
theorem nodup_holders : (roster.map (·.holder)).Nodup := by
  refine .of_map (·, phaseId) ?_
  rw [List.map_map]
  exact List.map_congr_left (fun e he =>
    congrArg (e.holder, ·) (enrolled_through_hook h e he).1) ▸ h.once

/-- The listeners of the phase are those of all who are enrolled. -/
theorem listeners_of_enrolled :
    (run calls).course.extractor.phase.listeners.map (·.2) = roster.map (·.listener) := by
  have hphase : (run calls).custody.registry.observable? phaseId
      = some (run calls).course.extractor.phase := rfl
  have hall : ∀ e ∈ roster, decide (e.subscription.observable = phaseId) = true :=
    fun e he => decide_eq_true (enrolled_through_hook h e he).1
  rw [h.listeners hphase, List.filter_eq_self.mpr hall, List.map_map]
  rfl

end

/-- The listeners of the phase are the callbacks of the hooks that watch it, each of them once. -/
theorem exists_watching (calls : List (WatchedCall α L)) :
    ∃ watching : List HookId, watching.Nodup ∧
      (∀ hook, hook ∈ watching ↔ ∃ k, (run calls).hook? hook = some k ∧ k.watches phaseId = true) ∧
      (run calls).course.extractor.phase.listeners.map (·.2) =
        watching.filterMap fun hook => ((run calls).hook? hook).map (·.callback) := by
  obtain ⟨-, registryCalls, hcustody⟩ := exists_registryCalls calls
  have hagrees := Custody.agrees_reached registryCalls
  have hcallbacks := Custody.callsBack_reached registryCalls
  rw [← hcustody] at hagrees hcallbacks
  generalize Custody.enrolled registryCalls = roster at hagrees hcallbacks
  have hholder := enrolled_through_hook hagrees
  refine ⟨(roster.map (·.holder)).filterMap Holder.hook?, ?_, fun hook => ?_, ?_⟩
  · exact (nodup_holders hagrees).filterMap fun holder holder' hook h h' =>
      (Holder.hook?_eq_some_iff.mp h).trans (Holder.hook?_eq_some_iff.mp h').symm
  · simp only [List.filterMap_map, List.mem_filterMap, Function.comp_apply,
      Holder.hook?_eq_some_iff]
    constructor
    · rintro ⟨e, he, hhook⟩
      obtain ⟨k, hk, -⟩ := hcallbacks e he hook hhook
      exact ⟨k, hk, (hagrees.watches_iff hk phaseId).mpr ⟨e, he, hhook, (hholder e he).1⟩⟩
    · rintro ⟨k, hk, hwatches⟩
      obtain ⟨e, he, hhook, -⟩ := (hagrees.watches_iff hk phaseId).mp hwatches
      exact ⟨e, he, hhook⟩
  · rw [listeners_of_enrolled hagrees, List.filterMap_map, List.filterMap_filterMap,
      ← List.filterMap_eq_map]
    refine List.filterMap_congr fun e he => ?_
    obtain ⟨-, hook, hhook⟩ := hholder e he
    obtain ⟨k, hk, hcallback⟩ := hcallbacks e he hook hhook
    have hk' : (run calls).hook? hook = some k := hk
    simp [hhook, Holder.hook?, hk', hcallback]

/-! ## The phase as published -/

/--
**The published phase follows the state**, whatever calls are made and whichever hooks come and go.

The phase is that of the state, and the extraction is marked as over exactly when it is stopped. A
start that fails changes nothing. Whatever happens next, if it changes the phase, every hook that
watches the phase is called once and nobody else is; if it does not, nobody is called.
-/
theorem phase_published (calls : List (WatchedCall α L)) :
    (run calls).course.extractor.phase.value = (run calls).course.state.phase ∧
      ((run calls).course.extractor.completed = true ↔
        ∃ informed, (run calls).course.state = .stopped informed) ∧
      (∀ inRuntime e, (run calls).course.extractor.start inRuntime = .error e →
        run (calls ++ [.extractor (.start inRuntime)]) = run calls) ∧
      ∃ watching : List HookId, watching.Nodup ∧
        (∀ hook, hook ∈ watching ↔
          ∃ k, (run calls).hook? hook = some k ∧ k.watches phaseId = true) ∧
        ∀ call, listenersCalled (run (calls ++ [call])).course.effects =
          listenersCalled (run calls).course.effects ++
            if (run (calls ++ [call])).course.extractor.phase.value =
                (run calls).course.extractor.phase.value then []
            else watching.filterMap fun hook => ((run calls).hook? hook).map (·.callback) := by
  obtain ⟨hpublished, -⟩ := exists_registryCalls calls
  obtain ⟨watching, hnodup, hmem, hlisteners⟩ := exists_watching calls
  refine ⟨hpublished.phase, ?_, fun inRuntime e h => ?_, watching, hnodup, hmem, fun call => ?_⟩
  · rw [hpublished.completed]
    exact Extraction.phase_eq_stopped_iff
  · rw [run_concat, next, Course.next_of_start_error h]
  · rw [run_concat]
    cases call with
    | extractor call =>
      have hstep := Extractor.publishes_respond hpublished (run calls).course.offers.length
        ((run calls).course.numbered call)
      have hvalue : ((run calls).next (.extractor call)).course.extractor.phase.value =
          ((run calls).next (.extractor call)).course.state.phase := hstep.published.phase
      rw [hvalue, ← hlisteners]
      exact (listenersCalled_append _ _).trans (congrArg _ hstep.called)
    | hook call =>
      rw [phase_next_hook, if_pos rfl, List.append_nil]
      rfl

/-- A hook that reads after the start hears of the pause and of the stop, and of nothing else. -/
example :
    listenersCalled (run (α := Char) [.hook (.make 7), .extractor (.start true), .hook (.read 0),
      .extractor (.start true), .extractor .pause, .extractor (.offer 'a'), .extractor .stop,
      .extractor .stop, .extractor .generatorEnds]).course.effects = [7, 7] := by
  rfl

end Watched

end Palette
