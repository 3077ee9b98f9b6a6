import Mathlib.Data.List.Induction
import Palette.Menu.Basic
import Palette.Proofs.Collections.Finding

/-!
# Calls to a menu

A menu is called from outside and by its timers, in whatever order, inside a runtime or outside of
it; every call is atomic. Several items added at once are added by as many calls, and what a
generator emits comes by calls too.

Most calls have nothing to do with the entries. What the others can make of the listed and the
pending ones is said once, by `MenuMove`: nothing, merging those pending, putting an entry into one
or the other, or taking entries out of both. Of the timers only the one started last is ever
running, and a call leaves it alone, calls it off or starts another (`TimerMove`). What holds after
every call is then a matter of these few moves.

Main statement: `Menu.follows_step`.
-/

namespace Palette

variable {ι π L : Type}

open SortedItems

/-- What to remove: an item, or an entry. -/
inductive Removal (ι π : Type) where
  | item (item : ι)
  | entry (entry : MenuEntry ι π)

/-- A call to a menu. -/
inductive MenuCall (ι π L : Type) where
  | addItem (inRuntime batch : Bool) (item : ι)
  | addItemAt (inRuntime batch : Bool) (item : ι) (index : Nat)
  | addEntry (inRuntime batch : Bool) (entry : MenuEntry ι π)
  | remove (removal : Removal ι π)
  | flush
  | timerDue (timer : TimerId)
  | readEntries
  | readItems
  | readCursor
  | watchEntries (listener : L)
  | watchCursor (listener : L)
  | watchSelected (listener : L)
  | watchGenerators (listener : L)
  | setCursor (item : Option ι)
  | setSelected (item : ι) (selected : Bool)
  | track (generator : GeneratorId)
  | forget (generator : GeneratorId)

namespace Removal

variable [BEq ι] [Priority π]

/-- Whether an entry is one of those to remove. -/
def names : Removal ι π → MenuEntry ι π → Bool
  | item i, e => e.holds i
  | entry x, e => e == x

/-- The entry to look for in the list. -/
def target? (listed : List (MenuEntry ι π)) : Removal ι π → Option (MenuEntry ι π)
  | item i => listed.find? (·.holds i)
  | entry x => some x

/-- What is left of the list if an entry is removed from it, and whether one was. -/
def withdraw (precedes : MenuEntry ι π → MenuEntry ι π → Bool) (r : Removal ι π)
    (listed : List (MenuEntry ι π)) : List (MenuEntry ι π) × Bool :=
  match r.target? listed with
  | some e => SortedItems.remove precedes e listed
  | none => (listed, false)

/-- Either one entry is withdrawn, which is named and equals the one that was looked for, or none
is. -/
theorem exists_of_withdraw [LawfulBEq ι] (precedes : MenuEntry ι π → MenuEntry ι π → Bool)
    (r : Removal ι π) (listed : List (MenuEntry ι π)) :
    (∃ front found back, listed = front ++ found :: back ∧ r.names found = true ∧
      (∃ target : MenuEntry ι π, (found == target) = true) ∧
      r.withdraw precedes listed = (front ++ back, true)) ∨
    r.withdraw precedes listed = (listed, false) := by
  unfold withdraw
  split
  · next target htarget =>
    rcases exists_of_remove precedes target listed with
      ⟨front, found, back, hlisted, hequal, hremove⟩ | hremove
    · refine .inl ⟨front, found, back, hlisted, ?_, ⟨target, hequal⟩, hremove⟩
      cases r with
      | item item =>
        have hholds : target.holds item = true :=
          List.find?_some (p := fun e : MenuEntry ι π => e.holds item) htarget
        have hitem : found.item = target.item := eq_of_beq (Bool.and_eq_true_iff.mp hequal).2
        exact beq_iff_eq.mpr (hitem.trans (eq_of_beq hholds))
      | entry entry =>
        obtain rfl : entry = target := Option.some.inj htarget
        exact hequal
    · exact .inr hremove
  · exact .inr rfl

end Removal

namespace MenuCall

variable [BEq ι] [Priority π]

/-- The entry that a call puts in. -/
def put? (m : Menu ι π L) : MenuCall ι π L → Option (MenuEntry ι π)
  | addItem _ _ item => some ⟨m.tailPriority, item⟩
  | addItemAt _ _ item index => some ⟨m.priorityAt index, item⟩
  | addEntry _ _ entry => some entry
  | _ => none

/-- What a call removes. -/
def removal? : MenuCall ι π L → Option (Removal ι π)
  | remove r => some r
  | _ => none

/-- Whether a call adds an entry to a batch. -/
def isBatched : MenuCall ι π L → Bool
  | addItem _ batch _ | addItemAt _ batch _ _ | addEntry _ batch _ => batch
  | _ => false

end MenuCall

namespace Menu

variable [BEq ι] [Priority π]

/-- Removes an item or an entry. -/
def remove (m : Menu ι π L) : Removal ι π → Op ι π L Bool
  | .item item => m.removeItem item
  | .entry entry => m.removeEntry entry

/-- What comes of a call. -/
def step (m : Menu ι π L) : MenuCall ι π L → Menu ι π L
  | .addItem inRuntime batch item => (m.addItem inRuntime batch item).state
  | .addItemAt inRuntime batch item index => (m.addItemAt inRuntime batch item index).state
  | .addEntry inRuntime batch entry => (m.addEntry inRuntime batch entry).state
  | .remove removal => (m.remove removal).state
  | .flush => m.flush.state
  | .timerDue timer => (m.timerDue timer).state
  | .readEntries => m.readEntries.state
  | .readItems => m.readItems.state
  | .readCursor => m.readCursor.state
  | .watchEntries listener => (m.watchEntries listener).state
  | .watchCursor listener => (m.watchCursor listener).state
  | .watchSelected listener => (m.watchSelected listener).state
  | .watchGenerators listener => (m.watchGenerators listener).state
  | .setCursor item => (m.setCursor item).state
  | .setSelected item selected => (m.setSelected item selected).state
  | .track generator => (m.track generator).state
  | .forget generator => (m.forget generator).state

/-- What comes of some calls to an empty menu. -/
def reached (config : MenuConfig) (calls : List (MenuCall ι π L)) : Menu ι π L :=
  calls.foldl step (.new config)

/-- The listed entries, in order. -/
def listed (m : Menu ι π L) : List (MenuEntry ι π) := m.entries.toList

theorem reached_concat (config : MenuConfig) (calls : List (MenuCall ι π L))
    (call : MenuCall ι π L) :
    reached config (calls ++ [call]) = (reached config calls).step call := by
  simp [reached]

end Menu

/-! ## Moves of entries -/

/-- What a call makes of the listed and the pending entries, where `put` is the entry that it puts
in and `removal` what it removes. -/
inductive MenuMove [BEq ι] [Priority π] (precedes : MenuEntry ι π → MenuEntry ι π → Bool)
    (limit : Option Nat) (listed pending : List (MenuEntry ι π)) :
    (put : Option (MenuEntry ι π)) → (removal : Option (Removal ι π)) →
      (listed' pending' : List (MenuEntry ι π)) → Prop where
  | rest : MenuMove precedes limit listed pending none none listed pending
  | flush (h : pending ≠ []) :
      MenuMove precedes limit listed pending none none
        (addAll precedes pending limit listed).1 []
  | list (e : MenuEntry ι π) :
      MenuMove precedes limit listed pending (some e) none
        (add precedes e limit listed).1 pending
  | wait (e : MenuEntry ι π) :
      MenuMove precedes limit listed pending (some e) none listed (pending ++ [e])
  | merge (e : MenuEntry ι π) :
      MenuMove precedes limit listed pending (some e) none
        (addAll precedes (pending ++ [e]) limit listed).1 []
  | withdraw (r : Removal ι π) :
      MenuMove precedes limit listed pending none (some r)
        (r.withdraw precedes listed).1 (pending.filter fun e => !r.names e)

/-! ## Moves of timers -/

/-- The timer that was started last unless it was called off, those that are running, and how many
were ever started. -/
structure Clock where
  timer : Option TimerId
  running : List TimerId
  timersSet : Nat

/-- Only the timer that was started last is running. -/
def Clock.Tidy (c : Clock) : Prop := ∀ t ∈ c.running, c.timer = some t ∧ t < c.timersSet

theorem Clock.tidy_stopped (timersSet : Nat) : Tidy ⟨none, [], timersSet⟩ := by
  intro t ht
  cases ht

/-- What a call makes of the timers, where `batched` tells if it adds to a batch. -/
inductive TimerMove (c : Clock) (pending : List (MenuEntry ι π)) :
    (batched : Bool) → (c' : Clock) → (pending' : List (MenuEntry ι π)) → Prop where
  | stay {pending'} (h : pending' ≠ [] → pending ≠ []) : TimerMove c pending false c pending'
  | stop (batched : Bool) : TimerMove c pending batched ⟨none, [], c.timersSet⟩ []
  | start (pending') :
      TimerMove c pending true ⟨some c.timersSet, [c.timersSet], c.timersSet + 1⟩ pending'

namespace Menu

/-- The timers of a menu. -/
def clock (m : Menu ι π L) : Clock := ⟨m.timer, m.timers, m.timersSet⟩

/-- What a call has left behind, where `put` is the entry that it puts in, `removal` what it
removes, and `batched` tells if it adds to a batch. -/
structure Follows [BEq ι] [Priority π] (m m' : Menu ι π L) (put : Option (MenuEntry ι π))
    (removal : Option (Removal ι π)) (batched : Bool) : Prop where
  config : m'.config = m.config
  precedes : m'.entries.precedes = m.entries.precedes
  entries : MenuMove m.entries.precedes m.config.maxItems m.listed m.pending put removal
    m'.listed m'.pending
  timers : m.clock.Tidy → TimerMove m.clock m.pending batched m'.clock m'.pending

/-! ### Flushing -/

section

variable (m : Menu ι π L)

@[simp] theorem entries_callOff : m.callOff.entries = m.entries := by
  unfold callOff; split <;> rfl

@[simp] theorem pending_callOff : m.callOff.pending = m.pending := by
  unfold callOff; split <;> rfl

@[simp] theorem listed_callOff : m.callOff.listed = m.listed := by
  rw [listed, entries_callOff, listed]

@[simp] theorem config_callOff : m.callOff.config = m.config := by
  unfold callOff; split <;> rfl

variable {m} in
theorem clock_callOff (h : m.clock.Tidy) : m.callOff.clock = ⟨none, [], m.timersSet⟩ := by
  unfold callOff
  split
  · next timer htimer =>
    have hnone : m.timers.filter (· != timer) = [] := by
      refine List.filter_eq_nil_iff.mpr fun t ht => ?_
      have heq : some timer = some t := htimer.symm.trans (h t ht).1
      simp [Option.some.inj heq]
    simp only [clock, hnone]
  · next htimer =>
    have hnone : m.timers = [] := by
      refine List.eq_nil_iff_forall_not_mem.mpr fun t ht => ?_
      have heq : none = some t := htimer.symm.trans (h t ht).1
      cases heq
    simp only [clock, hnone, htimer]

theorem flush_of_nil (h : m.pending = []) : m.flush.state = m.callOff := by
  simp only [flush]
  split
  · rfl
  · next hne => exact absurd ((pending_callOff m).trans h) hne

theorem flush_of_ne_nil (h : m.pending ≠ []) :
    m.flush.state = { m.callOff with
      pending := [], entries := (m.entries.addAll m.pending m.config.maxItems).state } := by
  simp only [flush]
  split
  · next hnil => exact absurd ((pending_callOff m).symm.trans hnil) h
  · rw [pending_callOff, entries_callOff, config_callOff]
    rfl

@[simp] theorem pending_flush : m.flush.state.pending = [] := by
  by_cases h : m.pending = []
  · rw [m.flush_of_nil h, pending_callOff, h]
  · rw [m.flush_of_ne_nil h]

@[simp] theorem config_flush : m.flush.state.config = m.config := by
  by_cases h : m.pending = []
  · rw [m.flush_of_nil h, config_callOff]
  · rw [m.flush_of_ne_nil h, config_callOff]

@[simp] theorem precedes_flush : m.flush.state.entries.precedes = m.entries.precedes := by
  by_cases h : m.pending = []
  · rw [m.flush_of_nil h, entries_callOff]
  · rw [m.flush_of_ne_nil h]
    rfl

variable {m} in
theorem clock_flush (h : m.clock.Tidy) : m.flush.state.clock = ⟨none, [], m.timersSet⟩ := by
  by_cases hpending : m.pending = []
  · rw [m.flush_of_nil hpending, clock_callOff h]
  · rw [m.flush_of_ne_nil hpending]
    exact clock_callOff h

end

variable [BEq ι] [Priority π] (m : Menu ι π L)

theorem move_flush :
    MenuMove m.entries.precedes m.config.maxItems m.listed m.pending none none
      m.flush.state.listed m.flush.state.pending := by
  by_cases h : m.pending = []
  · rw [m.flush_of_nil h, listed_callOff, pending_callOff]
    exact .rest
  · rw [m.flush_of_ne_nil h]
    simp only [listed, SortedList.addAll, SortedList.toList_change]
    exact .flush h

theorem follows_flush : m.Follows m.flush.state none none false where
  config := m.config_flush
  precedes := m.precedes_flush
  entries := m.move_flush
  timers h := by
    rw [clock_flush h, pending_flush]
    exact .stop false

/-- A timer runs down and is not called off any more. -/
theorem follows_timerDue (timer : TimerId) :
    m.Follows (m.timerDue timer).state none none false := by
  unfold timerDue
  split
  · let rundown : Menu ι π L := { m with timers := m.timers.filter (· != timer) }
    refine ⟨rundown.config_flush, rundown.precedes_flush, rundown.move_flush, fun h => ?_⟩
    have htidy : rundown.clock.Tidy := fun t ht => h t (List.mem_filter.mp ht).1
    rw [clock_flush htidy, pending_flush]
    exact .stop false
  · exact ⟨rfl, rfl, .rest, fun _ => .stay id⟩

/-! ### Putting in -/

theorem follows_add (entry : MenuEntry ι π) :
    m.Follows (m.onEntries (m.entries.add entry m.config.maxItems)).state (some entry) none
      false where
  config := rfl
  precedes := rfl
  entries := by
    have hlisted : (m.onEntries (m.entries.add entry m.config.maxItems)).state.listed =
        (add m.entries.precedes entry m.config.maxItems m.listed).1 :=
      SortedList.toList_change _ _
    rw [hlisted]
    exact .list entry
  timers _ := .stay id

theorem follows_enqueue (inRuntime : Bool) (entry : MenuEntry ι π) :
    m.Follows (m.enqueue inRuntime entry).state (some entry) none true := by
  let joined : Menu ι π L := { m with pending := m.pending ++ [entry] }
  have hconfig : joined.callOff.config = m.config := joined.config_callOff
  have hprecedes : joined.callOff.entries.precedes = m.entries.precedes := by
    rw [entries_callOff]
  have htidy (h : m.clock.Tidy) : joined.callOff.clock = ⟨none, [], m.timersSet⟩ :=
    clock_callOff (m := joined) h
  cases inRuntime with
  | true =>
    refine ⟨hconfig, hprecedes, ?_, fun h => ?_⟩
    · show MenuMove _ _ _ _ _ _ joined.callOff.listed joined.callOff.pending
      rw [listed_callOff, pending_callOff]
      exact .wait entry
    · have hset : joined.callOff.timersSet = m.timersSet := congrArg Clock.timersSet (htidy h)
      have htimers : joined.callOff.timers = [] := congrArg Clock.running (htidy h)
      have hclock : joined.callOff.setTimer.clock =
          ⟨some m.timersSet, [m.timersSet], m.timersSet + 1⟩ := by
        simp only [setTimer, clock, hset, htimers, List.nil_append]
      show TimerMove _ _ _ joined.callOff.setTimer.clock _
      rw [hclock]
      exact .start _
  | false =>
    refine ⟨(config_flush _).trans hconfig, (precedes_flush _).trans hprecedes, ?_, fun h => ?_⟩
    · show MenuMove _ _ _ _ _ _ joined.callOff.flush.state.listed
        joined.callOff.flush.state.pending
      rw [flush_of_ne_nil _ (by simp [joined])]
      simp only [listed, SortedList.addAll, SortedList.toList_change, entries_callOff,
        pending_callOff, config_callOff]
      exact .merge entry
    · have htidy' : joined.callOff.clock.Tidy := by
        rw [htidy h]
        exact Clock.tidy_stopped _
      have hset : joined.callOff.timersSet = m.timersSet := congrArg Clock.timersSet (htidy h)
      show TimerMove _ _ _ joined.callOff.flush.state.clock joined.callOff.flush.state.pending
      rw [clock_flush htidy', pending_flush, hset]
      exact .stop true

theorem follows_addEntry (inRuntime batch : Bool) (entry : MenuEntry ι π) :
    m.Follows (m.addEntry inRuntime batch entry).state (some entry) none batch := by
  cases batch with
  | false => exact m.follows_add entry
  | true => exact m.follows_enqueue inRuntime entry

/-! ### Taking out -/

/-- All pending entries that are named go, and one is withdrawn from the list. -/
theorem remove_eq (r : Removal ι π) :
    m.remove r = (m.removePending r.names).andThen fun m pending =>
      (m.onEntries (m.entries.change (r.withdraw m.entries.precedes))).returning
        (pending || ·) := by
  cases r with
  | entry entry => rfl
  | item item =>
    simp only [remove, removeItem, Written.andThen, removePending, Written.nothing]
    split
    · next entry htarget =>
      have hwithdraw : (Removal.item item).withdraw m.entries.precedes m.entries.toList =
          SortedItems.remove m.entries.precedes entry m.entries.toList := by
        simp only [Removal.withdraw, Removal.target?, htarget]
      rw [SortedList.change_congr m.entries
        (g := SortedItems.remove m.entries.precedes entry) hwithdraw]
      rfl
    · next htarget =>
      have hwithdraw : (Removal.item item).withdraw m.entries.precedes m.entries.toList =
          (m.entries.toList, false) := by
        simp only [Removal.withdraw, Removal.target?, htarget]
      rw [SortedList.change_congr m.entries (g := fun items => (items, false)) hwithdraw]
      exact congrArg (Written.mk _ · _) (Bool.or_false _).symm

theorem pending_remove (r : Removal ι π) :
    (m.remove r).state.pending = m.pending.filter fun e => !r.names e := by
  rw [remove_eq]
  rfl

theorem listed_remove (r : Removal ι π) :
    (m.remove r).state.listed = (r.withdraw m.entries.precedes m.listed).1 := by
  rw [remove_eq]
  exact SortedList.toList_change _ _

theorem result_remove (r : Removal ι π) :
    (m.remove r).result =
      (m.pending.any r.names || (r.withdraw m.entries.precedes m.listed).2) := by
  have hpending : (m.removePending r.names).result = m.pending.any r.names := by
    have hkept : (m.pending.filter (!r.names ·)).length = m.pending.length ↔
        m.pending.any r.names = false := by
      simp [List.length_filter_eq_length_iff, List.any_eq_false]
    cases hany : m.pending.any r.names with
    | false => exact bne_eq_false_iff_eq.mpr (hkept.mpr hany)
    | true => exact bne_iff_ne.mpr fun hlength => by simp [hkept.mp hlength] at hany
  rw [remove_eq, ← hpending]
  exact congrArg (_ || ·) (SortedList.result_change _ _)

theorem follows_remove (r : Removal ι π) :
    m.Follows (m.remove r).state none (some r) false where
  config := by
    rw [remove_eq]
    rfl
  precedes := by
    rw [remove_eq]
    rfl
  entries := by
    rw [m.listed_remove r, m.pending_remove r]
    exact .withdraw r
  timers _ := by
    have hclock : (m.remove r).state.clock = m.clock := by
      rw [remove_eq]
      rfl
    rw [hclock, m.pending_remove r]
    exact .stay fun hsome hnone => hsome (by rw [hnone, List.filter_nil])

/-! ### All calls -/

/-- **What every call leaves behind.** -/
theorem follows_step (call : MenuCall ι π L) :
    m.Follows (m.step call) (call.put? m) call.removal? call.isBatched := by
  cases call with
  | addItem inRuntime batch item => exact m.follows_addEntry inRuntime batch _
  | addItemAt inRuntime batch item index => exact m.follows_addEntry inRuntime batch _
  | addEntry inRuntime batch entry => exact m.follows_addEntry inRuntime batch entry
  | remove r => exact m.follows_remove r
  | flush | readEntries | readItems => exact m.follows_flush
  | timerDue timer => exact m.follows_timerDue timer
  | watchEntries listener =>
    have hflush := m.follows_flush
    exact ⟨hflush.config, hflush.precedes, hflush.entries, hflush.timers⟩
  | readCursor =>
    simp only [step, readCursor]
    split
    · exact ⟨rfl, rfl, .rest, fun _ => .stay id⟩
    · exact m.follows_flush
  | watchCursor listener =>
    simp only [step, watchCursor]
    split
    · exact ⟨rfl, rfl, .rest, fun _ => .stay id⟩
    · have hflush := follows_flush { m with cursor := (m.cursor.subscribe listener).1 }
      exact ⟨hflush.config, hflush.precedes, hflush.entries, hflush.timers⟩
  | watchSelected | watchGenerators | setCursor | setSelected | track | forget =>
    exact ⟨rfl, rfl, .rest, fun _ => .stay id⟩

/-! ### Runs -/

theorem config_reached (config : MenuConfig) (calls : List (MenuCall ι π L)) :
    (reached config calls).config = config := by
  induction calls using List.reverseRecOn with
  | nil => rfl
  | append_singleton calls call ih => rw [reached_concat, (follows_step _ call).config, ih]

theorem precedes_reached (config : MenuConfig) (calls : List (MenuCall ι π L)) :
    (reached config calls).entries.precedes =
      fun a b => config.order.precedes a.priority b.priority := by
  induction calls using List.reverseRecOn with
  | nil => rfl
  | append_singleton calls call ih => rw [reached_concat, (follows_step _ call).precedes, ih]

end Menu

end Palette
