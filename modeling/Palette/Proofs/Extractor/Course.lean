import Mathlib.Data.List.Induction
import Palette.Extractor.Basic

/-!
# The course of an extraction

An extraction is started, paused and stopped from outside, any number of generator tasks offer
items, and at some time the generator ends. A course is what comes of such calls in whatever order
they are made, one after the other, since every call is atomic.

The offers of a course are numbered. Its number is the ticket of an offer, and the item goes by it
too, so that two offers of the same thing can be told apart when one of them is delivered.
Extractors do not look at items, so the numbers change nothing (`Course.plain_eq`).

What a call can do to an extraction is said once, by `Move`; whatever holds of a course is then
shown by cases on the moves and carried along the calls.

Main statements: `Extractor.move_respond`, `Extractor.respond_map` and `Course.stopped_append`.
-/

namespace Palette

variable {α β T L : Type _}

/-! ## Calls and their effects -/

/-- A call to an extractor. -/
inductive ExtractorCall (α : Type _) where
  | start (inRuntime : Bool)
  | pause
  | stop
  | offer (item : α)
  | generatorEnds

/-- The call with its item seen as another one. -/
def ExtractorCall.map (f : α → β) : ExtractorCall α → ExtractorCall β
  | start inRuntime => .start inRuntime
  | pause => .pause
  | stop => .stop
  | offer item => .offer (f item)
  | generatorEnds => .generatorEnds

/-- The item that a call offers. -/
def ExtractorCall.item? : ExtractorCall α → Option α
  | offer item => some item
  | _ => none

theorem ExtractorCall.item?_map (f : α → β) (call : ExtractorCall α) :
    (call.map f).item? = call.item?.map f := by
  cases call <;> rfl

namespace Effect

/-- The item that is delivered. -/
def delivered? : Effect α T L → Option α
  | deliver item => some item
  | _ => none

/-- The answer that is given. -/
def answer? : Effect α T L → Option (T × Bool)
  | answer ticket stop => some (ticket, stop)
  | _ => none

end Effect

/-- The items delivered, in order. -/
def deliveries (effects : List (Effect α T L)) : List α := effects.filterMap Effect.delivered?

/-- The answers given, in order. -/
def answers (effects : List (Effect α T L)) : List (T × Bool) := effects.filterMap Effect.answer?

/-- The answer to the one whose item is held, if there is one. -/
def answerTo (held : Option (α × T)) (stop : Bool) : List (T × Bool) :=
  (held.map fun h => (h.2, stop)).toList

theorem mem_answerTo {held : Option (α × T)} {stop : Bool} {r : T × Bool} :
    r ∈ answerTo held stop ↔ (∃ item, held = some (item, r.1)) ∧ r.2 = stop := by
  cases held with
  | none => simp [answerTo]
  | some h => simp [answerTo, Prod.ext_iff, eq_comm]

section

variable (effects effects' : List (Effect α T L)) (listeners : List L) (held : Option (α × T))

@[simp] theorem deliveries_append :
    deliveries (effects ++ effects') = deliveries effects ++ deliveries effects' :=
  List.filterMap_append

@[simp] theorem answers_append :
    answers (effects ++ effects') = answers effects ++ answers effects' :=
  List.filterMap_append

@[simp] theorem deliveries_calls :
    deliveries (listeners.map .call : List (Effect α T L)) = [] := by
  induction listeners with
  | nil => rfl
  | cons _ _ ih => exact ih

@[simp] theorem answers_calls : answers (listeners.map .call : List (Effect α T L)) = [] := by
  induction listeners with
  | nil => rfl
  | cons _ _ ih => exact ih

/-- A held item that is released is delivered, and the one who offered it may go on. -/
@[simp] theorem deliveries_release :
    deliveries (Extractor.release held : List (Effect α T L)) = (held.map (·.1)).toList := by
  cases held <;> rfl

@[simp] theorem answers_release :
    answers (Extractor.release held : List (Effect α T L)) = answerTo held false := by
  cases held <;> rfl

/-- A held item that is discarded is not delivered, and the one who offered it has to stop. -/
@[simp] theorem deliveries_discard :
    deliveries (Extractor.discard held : List (Effect α T L)) = [] := by
  cases held <;> rfl

@[simp] theorem answers_discard :
    answers (Extractor.discard held : List (Effect α T L)) = answerTo held true := by
  cases held <;> rfl

end

namespace Extractor

variable (x : Extractor α T L) (s : Extraction α T) (informed : Bool)

@[simp] theorem deliveries_enter : deliveries (x.enter s).2 = [] := deliveries_calls _

@[simp] theorem answers_enter : answers (x.enter s).2 = [] := answers_calls _

@[simp] theorem deliveries_finish : deliveries (x.finish informed).2 = [] := by
  show deliveries ((x.enter _).2 ++ [.complete]) = []
  rw [deliveries_append, deliveries_enter]
  rfl

@[simp] theorem answers_finish : answers (x.finish informed).2 = [] := by
  show answers ((x.enter _).2 ++ [.complete]) = []
  rw [answers_append, answers_enter]
  rfl

/-- What comes of a call, where `ticket` stands for who makes an offer. A start that fails has no
effects. -/
def respond (x : Extractor α T L) (ticket : T) :
    ExtractorCall α → Extractor α T L × List (Effect α T L)
  | .start inRuntime =>
    match x.start inRuntime with
    | .ok result => result
    | .error _ => (x, [])
  | .pause => x.pause
  | .stop => x.stop
  | .offer item =>
    let offered := x.offer item ticket
    (offered.state, offered.effects ++ (offered.answer.map (.answer ticket)).toList)
  | .generatorEnds => x.generatorEnded

end Extractor

/-! ## Moves -/

namespace Extraction

/-- The item held back, with the ticket of who offered it. -/
def held? : Extraction α T → Option (α × T)
  | paused held => held
  | _ => none

/-- Whether the extraction is stopped and someone was told to stop. -/
def isInformed : Extraction α T → Bool
  | stopped informed => informed
  | _ => false

/-- Whether items are delivered as soon as they are offered. -/
def isOpen : Extraction α T → Bool
  | notStarted | running => true
  | _ => false

end Extraction

/-- What a call makes of the state of an extraction, with the items that it delivers and the
answers that it gives. -/
inductive Move (ticket : T) :
    Extraction α T → ExtractorCall α → Extraction α T → List α → List (T × Bool) → Prop where
  | begin : Move ticket .notStarted (.start true) .running [] []
  | refused : Move ticket .notStarted (.start false) .notStarted [] []
  | again (r : Bool) : Move ticket .running (.start r) .running [] []
  | resume (held : Option (α × T)) (r : Bool) :
      Move ticket (.paused held) (.start r) .running (held.map (·.1)).toList
        (answerTo held false)
  | late (informed r : Bool) : Move ticket (.stopped informed) (.start r) (.stopped informed) [] []
  | pause : Move ticket .running .pause (.paused none) [] []
  | unpaused {s : Extraction α T} (h : s ≠ .running) : Move ticket s .pause s [] []
  | stop {s : Extraction α T} (h : ∀ informed, s ≠ .stopped informed) :
      Move ticket s .stop (.stopped s.held?.isSome) [] (answerTo s.held? true)
  | stopAgain (informed : Bool) : Move ticket (.stopped informed) .stop (.stopped informed) [] []
  | pass {s : Extraction α T} (h : s.isOpen = true) (item : α) :
      Move ticket s (.offer item) s [item] [(ticket, false)]
  | hold (held : Option (α × T)) (item : α) :
      Move ticket (.paused held) (.offer item) (.paused (some (item, ticket))) []
        (answerTo held false)
  | tell (item : α) :
      Move ticket (.stopped false) (.offer item) (.stopped true) [] [(ticket, true)]
  | ignore (item : α) : Move ticket (.stopped true) (.offer item) (.stopped true) [] []
  | finish (s : Extraction α T) :
      Move ticket s .generatorEnds (.stopped true) [] (answerTo s.held? true)

/-- **Every call is a move.** -/
theorem Extractor.move_respond (x : Extractor α T L) (ticket : T) (call : ExtractorCall α) :
    Move ticket x.state call (x.respond ticket call).1.state (deliveries (x.respond ticket call).2)
      (answers (x.respond ticket call).2) := by
  obtain ⟨state, phase, completed⟩ := x
  cases call with
  | start inRuntime =>
    cases state with
    | notStarted =>
      cases inRuntime with
      | false => exact .refused
      | true =>
        show Move ticket _ _ _ (deliveries ((enter _ _).2 ++ [.launch]))
          (answers ((enter _ _).2 ++ [.launch]))
        rw [deliveries_append, deliveries_enter, answers_append, answers_enter]
        exact .begin
    | running =>
      show Move ticket _ _ _ (deliveries (enter _ _).2) (answers (enter _ _).2)
      rw [deliveries_enter, answers_enter]
      exact .again inRuntime
    | paused held =>
      show Move ticket _ _ _ (deliveries ((enter _ _).2 ++ release held))
        (answers ((enter _ _).2 ++ release held))
      rw [deliveries_append, deliveries_enter, answers_append, answers_enter, deliveries_release,
        answers_release]
      exact .resume held inRuntime
    | stopped informed => exact .late informed inRuntime
  | pause =>
    cases state with
    | running =>
      show Move ticket _ _ _ (deliveries (enter _ _).2) (answers (enter _ _).2)
      rw [deliveries_enter, answers_enter]
      exact .pause
    | notStarted | paused held | stopped informed => exact .unpaused nofun
  | stop =>
    cases state with
    | notStarted | running =>
      show Move ticket _ _ _ (deliveries (finish _ _).2) (answers (finish _ _).2)
      rw [deliveries_finish, answers_finish]
      exact .stop nofun
    | paused held =>
      show Move ticket _ _ _ (deliveries (discard held ++ (finish _ _).2))
        (answers (discard held ++ (finish _ _).2))
      rw [deliveries_append, deliveries_finish, deliveries_discard, answers_append, answers_finish,
        answers_discard, List.append_nil, List.append_nil]
      exact .stop nofun
    | stopped informed => exact .stopAgain informed
  | offer item =>
    cases state with
    | notStarted | running => exact .pass rfl item
    | paused held => cases held <;> exact .hold _ item
    | stopped informed =>
      cases informed with
      | false => exact .tell item
      | true => exact .ignore item
  | generatorEnds =>
    show Move ticket _ _ _ (deliveries (discard _ ++ (finish _ _).2))
      (answers (discard _ ++ (finish _ _).2))
    rw [deliveries_append, deliveries_finish, deliveries_discard, answers_append, answers_finish,
      answers_discard, List.append_nil, List.append_nil]
    cases state <;> exact .finish _

namespace Move

variable {ticket : T} {call : ExtractorCall α} {s s' : Extraction α T} {items : List α}
  {replies : List (T × Bool)}

/-- What is stopped stays stopped and delivers nothing. -/
theorem of_stopped {informed : Bool} (m : Move ticket (.stopped informed) call s items replies) :
    (∃ informed', s = .stopped informed') ∧ items = [] := by
  cases m with
  | late | stopAgain | tell | ignore | finish | unpaused => exact ⟨⟨_, rfl⟩, rfl⟩
  | stop h => exact absurd rfl (h informed)
  | pass h => cases h

/-- Once someone was told to stop, nothing happens any more. -/
theorem of_informed (m : Move ticket (.stopped true) call s items replies) :
    s = .stopped true ∧ items = [] ∧ replies = [] := by
  cases m with
  | late | stopAgain | ignore | finish | unpaused => exact ⟨rfl, rfl, rfl⟩
  | stop h => exact absurd rfl (h true)
  | pass h => cases h

/-- A stop delivers nothing. -/
theorem of_stop (m : Move ticket s .stop s' items replies) :
    (∃ informed, s' = .stopped informed) ∧ items = [] := by
  cases m <;> exact ⟨⟨_, rfl⟩, rfl⟩

/-- What delivers an item leaves the extraction open for more. -/
theorem isOpen_of_delivers (m : Move ticket s call s' items replies) (h : items ≠ []) :
    s'.isOpen = true := by
  cases m with
  | resume => rfl
  | pass hopen => exact hopen
  | _ => exact absurd rfl h

/-- A move delivers one item at most, the one that was held or the one that is offered. -/
theorem delivers (m : Move ticket s call s' items replies) :
    items = [] ∨
      ∃ d, items = [d] ∧ ((∃ holder, s.held? = some (d, holder)) ∨ call.item? = some d) := by
  cases m with
  | resume held =>
    cases held with
    | none => exact .inl rfl
    | some h => exact .inr ⟨h.1, rfl, .inl ⟨h.2, rfl⟩⟩
  | pass _ item => exact .inr ⟨item, rfl, .inr rfl⟩
  | _ => exact .inl rfl

/-- A move gives one answer at most, to the one whose item was held or to the one who offers. -/
theorem replies_to (m : Move ticket s call s' items replies) :
    replies = [] ∨ ∃ r, replies = [r] ∧
      ((∃ item, s.held? = some (item, r.1)) ∨ r.1 = ticket ∧ call.item?.isSome = true) := by
  cases m with
  | resume held | hold held =>
    cases held with
    | none => exact .inl rfl
    | some h => exact .inr ⟨(h.2, false), rfl, .inl ⟨h.1, rfl⟩⟩
  | stop | finish =>
    cases hheld : s.held? with
    | none => exact .inl rfl
    | some h => exact .inr ⟨(h.2, true), rfl, .inl ⟨h.1, rfl⟩⟩
  | pass => exact .inr ⟨(ticket, false), rfl, .inr ⟨rfl, rfl⟩⟩
  | tell => exact .inr ⟨(ticket, true), rfl, .inr ⟨rfl, rfl⟩⟩
  | _ => exact .inl rfl

/-- What is held back was held before, and then nothing becomes of it, or it is offered now. -/
theorem holds (m : Move ticket s call s' items replies) {item : α} {holder : T}
    (h : s'.held? = some (item, holder)) :
    items = [] ∧ (s.held? = some (item, holder) ∧ replies = [] ∧ call.item? = none ∨
      call.item? = some item ∧ holder = ticket ∧
        ∀ r ∈ replies, ∃ earlier, s.held? = some (earlier, r.1)) := by
  cases m with
  | unpaused => exact ⟨rfl, .inl ⟨h, rfl, rfl⟩⟩
  | hold held =>
    cases h
    exact ⟨rfl, .inr ⟨rfl, rfl, fun r hr => (mem_answerTo.mp hr).1⟩⟩
  | pass hopen =>
    cases s with
    | notStarted | running => cases h
    | paused | stopped => cases hopen
  | _ => cases h

/-- Nobody is told to stop twice. -/
theorem told_le (m : Move ticket s call s' items replies) :
    s.isInformed.toNat + replies.countP (·.2) ≤ s'.isInformed.toNat := by
  cases m with
  | stop h =>
    cases s with
    | notStarted | running => exact Nat.le_refl _
    | paused held => cases held <;> exact Nat.le_refl _
    | stopped informed => exact absurd rfl (h informed)
  | finish =>
    cases s with
    | notStarted | running => exact Nat.zero_le 1
    | paused held =>
      cases held with
      | none => exact Nat.zero_le 1
      | some => exact Nat.le_refl 1
    | stopped informed => exact Bool.toNat_le informed
  | resume held | hold held => cases held <;> exact Nat.le_refl _
  | _ => exact Nat.le_refl _

/-- Who may go on had the item delivered that was offered, or else another one offers an item while
that one is held back. -/
theorem lets_go (m : Move ticket s call s' items replies) {holder : T}
    (h : (holder, false) ∈ replies) :
    (∃ item, items = [item] ∧ (s.held? = some (item, holder) ∨
        holder = ticket ∧ call.item? = some item)) ∨
      ∃ item later, s = .paused (some (item, holder)) ∧ call = .offer later ∧ items = [] := by
  cases m with
  | resume held =>
    obtain ⟨item, rfl⟩ := (mem_answerTo.mp h).1
    exact .inl ⟨item, rfl, .inl rfl⟩
  | pass _ item =>
    cases List.mem_singleton.mp h
    exact .inl ⟨item, rfl, .inr ⟨rfl, rfl⟩⟩
  | hold held later =>
    obtain ⟨item, rfl⟩ := (mem_answerTo.mp h).1
    exact .inr ⟨item, later, rfl, rfl, rfl⟩
  | stop | finish => cases (mem_answerTo.mp h).2
  | tell => cases List.mem_singleton.mp h
  | _ => cases h

/-- A later offer releases the one who waits, and its item is dropped. -/
theorem supersedes {item later : α} {holder : T}
    (m : Move ticket (.paused (some (item, holder))) (.offer later) s' items replies) :
    (holder, false) ∈ replies ∧ items = [] := by
  cases m with
  | hold => exact ⟨mem_answerTo.mpr ⟨⟨item, rfl⟩, rfl⟩, rfl⟩
  | pass h => cases h

end Move

/-! ## Items are not looked at -/

/-- The state with its items seen as others. -/
def Extraction.map (f : α → β) : Extraction α T → Extraction β T
  | notStarted => .notStarted
  | running => .running
  | paused held => .paused (held.map fun (item, ticket) => (f item, ticket))
  | stopped informed => .stopped informed

/-- The effect with its item seen as another one. -/
def Effect.map (f : α → β) : Effect α T L → Effect β T L
  | call listener => .call listener
  | launch => .launch
  | deliver item => .deliver (f item)
  | answer ticket stop => .answer ticket stop
  | complete => .complete

namespace Extractor

variable (f : α → β)

/-- The extractor with its items seen as others. -/
def map (x : Extractor α T L) : Extractor β T L := ⟨x.state.map f, x.phase, x.completed⟩

/-- The same for a result. -/
def mapResult (r : Extractor α T L × List (Effect α T L)) : Extractor β T L × List (Effect β T L) :=
  (r.1.map f, r.2.map (Effect.map f))

section

variable {f : α → β} {r : Extractor α T L × List (Effect α T L)}
  {r' : Extractor β T L × List (Effect β T L)} (h : r' = mapResult f r)
include h

theorem mapResult_behind (effects : List (Effect α T L)) :
    (r'.1, r'.2 ++ effects.map (Effect.map f)) = mapResult f (r.1, r.2 ++ effects) := by
  rw [h]
  simp [mapResult]

theorem mapResult_before (effects : List (Effect α T L)) :
    (r'.1, effects.map (Effect.map f) ++ r'.2) = mapResult f (r.1, effects ++ r.2) := by
  rw [h]
  simp [mapResult]

end

theorem enter_map (x : Extractor α T L) (s : Extraction α T) :
    (x.map f).enter (s.map f) = mapResult f (x.enter s) := by
  have hphase : (s.map f).phase = s.phase := by cases s <;> rfl
  have hcalls : Effect.map (T := T) (L := L) f ∘ Effect.call = Effect.call := rfl
  unfold enter publish mapResult
  simp only [map, hphase, List.map_map, hcalls]

theorem finish_map (x : Extractor α T L) (informed : Bool) :
    (x.map f).finish informed = mapResult f (x.finish informed) := by
  have h := enter_map f x (.stopped informed)
  unfold finish
  rw [show Extraction.stopped informed = (Extraction.stopped informed : Extraction α T).map f from rfl,
    h]
  simp [mapResult, map, Effect.map]

/-- **Extractors do not look at items.** -/
theorem respond_map (x : Extractor α T L) (ticket : T) (call : ExtractorCall α) :
    (x.map f).respond ticket (call.map f) = mapResult f (x.respond ticket call) := by
  obtain ⟨state, phase, completed⟩ := x
  have henter := enter_map f ⟨state, phase, completed⟩
  have hfinish := finish_map f ⟨state, phase, completed⟩
  cases call with
  | start inRuntime =>
    cases state with
    | notStarted =>
      cases inRuntime with
      | false => rfl
      | true => exact mapResult_behind (henter .running) [.launch]
    | running => exact henter .running
    | paused held =>
      have hresult := mapResult_behind (henter .running) (release held)
      cases held <;> exact hresult
    | stopped informed => rfl
  | pause =>
    cases state with
    | running => exact henter (.paused none)
    | notStarted | paused held | stopped informed => rfl
  | stop =>
    cases state with
    | notStarted | running => exact hfinish false
    | paused held =>
      have hresult := mapResult_before (hfinish held.isSome) (discard held)
      cases held <;> exact hresult
    | stopped informed => rfl
  | offer item =>
    cases state with
    | notStarted | running => rfl
    | paused held => cases held <;> rfl
    | stopped informed => cases informed <;> rfl
  | generatorEnds =>
    cases state with
    | paused held =>
      have hresult := mapResult_before (hfinish true) (discard held)
      cases held <;> exact hresult
    | notStarted | running | stopped informed => exact hfinish true

end Extractor

/-! ## Courses -/

/-- How far an extraction has come. -/
structure Course (α L : Type _) where
  extractor : Extractor (Nat × α) Nat L
  /-- The items offered so far, with their numbers. -/
  offers : List (Nat × α)
  /-- The effects so far, in order. -/
  effects : List (Effect (Nat × α) Nat L)

namespace Course

/-- The state of the extraction. -/
def state (c : Course α L) : Extraction (Nat × α) Nat := c.extractor.state

/-- The items delivered so far, in order. -/
def delivered (c : Course α L) : List (Nat × α) := deliveries c.effects

/-- The answers given so far, in order. -/
def answered (c : Course α L) : List (Nat × Bool) := answers c.effects

/-- Before the first call; whoever listens to the phase is subscribed already. -/
def initial (phase : Observable Phase L) : Course α L :=
  { extractor := ⟨.notStarted, phase, false⟩, offers := [], effects := [] }

/-- The call with its item numbered. -/
def numbered (c : Course α L) (call : ExtractorCall α) : ExtractorCall (Nat × α) :=
  call.map (c.offers.length, ·)

/-- How far it has come after one more call. -/
def next (c : Course α L) (call : ExtractorCall α) : Course α L :=
  let (x, effects) := c.extractor.respond c.offers.length (c.numbered call)
  { extractor := x, offers := c.offers ++ (c.numbered call).item?.toList,
    effects := c.effects ++ effects }

/-- How far it has come after some calls. -/
def run (phase : Observable Phase L) (calls : List (ExtractorCall α)) : Course α L :=
  calls.foldl next (initial phase)

variable {phase : Observable Phase L}

theorem run_concat (calls : List (ExtractorCall α)) (call : ExtractorCall α) :
    run phase (calls ++ [call]) = (run phase calls).next call := by
  rw [run, List.foldl_append]
  rfl

/-- A call somewhere among the first ones and the last is the last one or one of the first. -/
theorem concat_eq_append_cons {calls before rest : List (ExtractorCall α)}
    {last call : ExtractorCall α} (h : calls ++ [last] = before ++ call :: rest) :
    (calls = before ∧ last = call) ∨ ∃ between, calls = before ++ call :: between := by
  rcases List.eq_nil_or_concat rest with rfl | ⟨between, final, rfl⟩
  · obtain ⟨rfl, hlast⟩ := List.append_inj' h rfl
    exact .inl ⟨rfl, List.head_eq_of_cons_eq hlast⟩
  · rw [List.concat_eq_append, ← List.cons_append, ← List.append_assoc] at h
    exact .inr ⟨between, (List.append_inj' h rfl).1⟩

/-- **Every call moves the course on.** -/
theorem exists_move (c : Course α L) (call : ExtractorCall α) :
    ∃ items replies,
      Move c.offers.length c.state (c.numbered call) (c.next call).state items replies ∧
        (c.next call).delivered = c.delivered ++ items ∧
        (c.next call).answered = c.answered ++ replies :=
  ⟨_, _, c.extractor.move_respond c.offers.length (c.numbered call), deliveries_append _ _,
    answers_append _ _⟩

/-- Whatever holds at first and is kept by every call holds after all of them. -/
theorem run_induction {P : List (ExtractorCall α) → Course α L → Prop} (first : P [] (initial phase))
    (step : ∀ calls call, P calls (run phase calls) →
      P (calls ++ [call]) ((run phase calls).next call)) (calls : List (ExtractorCall α)) :
    P calls (run phase calls) := by
  induction calls using List.reverseRecOn with
  | nil => exact first
  | append_singleton calls call ih =>
    rw [run_concat]
    exact step calls call ih

theorem offers_next (c : Course α L) (call : ExtractorCall α) :
    (c.next call).offers = c.offers ++ (call.item?.map (c.offers.length, ·)).toList := by
  rw [← ExtractorCall.item?_map]
  rfl

/-- The offers of a course are the items that the calls offer. -/
theorem offers_map_snd (phase : Observable Phase L) (calls : List (ExtractorCall α)) :
    (run phase calls).offers.map (·.2) = calls.filterMap ExtractorCall.item? := by
  refine run_induction (P := fun calls c => c.offers.map (·.2) = calls.filterMap _) rfl
    (fun calls call h => ?_) calls
  rw [offers_next, List.map_append, h, List.filterMap_append]
  cases call <;> rfl

/-- The extractor, its effects and the count of the offers after some calls, where items go without
numbers. -/
def plain (phase : Observable Phase L) (calls : List (ExtractorCall α)) :
    Extractor α Nat L × List (Effect α Nat L) × Nat :=
  calls.foldl
    (fun (x, effects, count) call =>
      let (x, more) := x.respond count call
      (x, effects ++ more, count + call.item?.toList.length))
    (⟨.notStarted, phase, false⟩, [], 0)

/-- **The numbers change nothing.** -/
theorem plain_eq (calls : List (ExtractorCall α)) :
    plain phase calls = ((run phase calls).extractor.map (·.2),
      (run phase calls).effects.map (Effect.map (·.2)), (run phase calls).offers.length) := by
  refine run_induction (P := fun calls c => plain phase calls =
    (c.extractor.map (·.2), c.effects.map (Effect.map (·.2)), c.offers.length)) rfl
    (fun calls call h => ?_) calls
  have hcall : ((run phase calls).numbered call).map (·.2) = call := by cases call <;> rfl
  have hrespond := Extractor.respond_map (·.2) (run phase calls).extractor
    (run phase calls).offers.length ((run phase calls).numbered call)
  rw [hcall] at hrespond
  rw [plain, List.foldl_append, ← plain, h]
  simp only [List.foldl_cons, List.foldl_nil, hrespond, next, Extractor.mapResult, List.map_append,
    List.length_append, numbered, ExtractorCall.item?_map, Option.length_toList, Option.isSome_map]

/-- **An extraction that was stopped stays stopped**, and delivers nothing more. -/
theorem stopped_append {calls : List (ExtractorCall α)} {informed : Bool}
    (h : (run phase calls).state = .stopped informed) (more : List (ExtractorCall α)) :
    (∃ informed', (run phase (calls ++ more)).state = .stopped informed') ∧
      (run phase (calls ++ more)).delivered = (run phase calls).delivered := by
  induction more using List.reverseRecOn with
  | nil => exact ⟨⟨informed, by rwa [List.append_nil]⟩, by rw [List.append_nil]⟩
  | append_singleton more call ih =>
    obtain ⟨⟨informed', hstopped⟩, hsame⟩ := ih
    obtain ⟨items, replies, hmove, hdelivered, -⟩ :=
      (run phase (calls ++ more)).exists_move call
    rw [hstopped] at hmove
    obtain ⟨hstays, rfl⟩ := hmove.of_stopped
    rw [← List.append_assoc, run_concat]
    exact ⟨hstays, by rw [hdelivered, List.append_nil, hsame]⟩

/-- **Nothing is delivered from a stop on.** -/
theorem delivered_stop (before more : List (ExtractorCall α)) :
    (run phase (before ++ .stop :: more)).delivered = (run phase before).delivered := by
  obtain ⟨items, replies, hmove, hdelivered, -⟩ := (run phase before).exists_move .stop
  obtain ⟨⟨informed, hstopped⟩, rfl⟩ := hmove.of_stop
  rw [← run_concat] at hstopped hdelivered
  rw [List.append_cons, (stopped_append hstopped more).2, hdelivered, List.append_nil]

/-- What is stopped does not start. -/
theorem start_of_stopped {c : Course α L} {informed : Bool} (h : c.state = .stopped informed)
    (inRuntime : Bool) : c.extractor.start inRuntime = .error .finished := by
  have hstate : c.extractor.state = .stopped informed := h
  unfold Extractor.start
  rw [hstate]

/-- **Items are delivered only while the extraction is neither paused nor stopped.** -/
theorem isOpen_of_delivered_ne {calls : List (ExtractorCall α)} {call : ExtractorCall α}
    (h : (run phase (calls ++ [call])).delivered ≠ (run phase calls).delivered) :
    (run phase (calls ++ [call])).state.isOpen = true := by
  obtain ⟨items, replies, hmove, hdelivered, -⟩ := (run phase calls).exists_move call
  rw [run_concat] at h ⊢
  refine hmove.isOpen_of_delivers ?_
  rintro rfl
  exact h (by rw [hdelivered, List.append_nil])

end Course

end Palette
