import Mathlib.Data.List.Induction
import Palette.Observable.Registry

/-!
# Calls to observables and hooks

Observables, subscriptions and hooks as they are used: one call after the other, in whatever order.
What is left in the hands of those who subscribed is a part of the state (`Custody`): a subscription
can be disposed of, or dropped, which is the same, or detached for as long as it is held, and once.

What a call can do to subscriptions is said once. It ends those that one `Holder` has
(`Custody.ended?`) or it begins one (`Custody.begun?`); the listeners of every observable, the
subscriptions of every hook and what is held follow from these two and nothing else.

Main statements: `Custody.listeners_step`, `Custody.hookSubscriptions_step`, `Custody.handle?_step`.
-/

namespace Palette

variable {α L : Type _}

/-! ## Tables with gaps -/

section Slots

variable {β : Type _} {slots : List (Option β)} {n m : Nat}

theorem lt_length_of_join_getElem? {b : β} (h : slots[n]?.join = some b) : n < slots.length := by
  by_contra hge
  simp [List.getElem?_eq_none (Nat.le_of_not_lt hge)] at h

theorem join_getElem?_concat (slots : List (Option β)) (slot : Option β) (n : Nat) :
    (slots ++ [slot])[n]?.join = if n = slots.length then slot else slots[n]?.join := by
  rw [List.getElem?_append]
  grind

theorem join_getElem?_set (h : n < slots.length) (slot : Option β) (m : Nat) :
    (slots.set n slot)[m]?.join = if n = m then slot else slots[m]?.join := by
  rw [List.getElem?_set]
  grind

/-- A gap can be made anywhere. -/
theorem join_getElem?_set_none (slots : List (Option β)) (n m : Nat) :
    (slots.set n none)[m]?.join = if n = m then none else slots[m]?.join := by
  rw [List.getElem?_set]
  grind

end Slots

/-! ## Tables of a registry -/

namespace Observable

/-- The observable with the given id without the listeners of some subscriptions. -/
def without (o : Observable α L) (id : ObservableId) (gone : List Subscription) :
    Observable α L :=
  { o with listeners := o.listeners.filter fun l => (⟨id, l.1⟩ : Subscription) ∉ gone }

theorem without_eq_self {o : Observable α L} {id : ObservableId} {gone : List Subscription}
    (h : ∀ number, (⟨id, number⟩ : Subscription) ∉ gone) : o.without id gone = o := by
  have hlisteners : (o.without id gone).listeners = o.listeners :=
    List.filter_eq_self.mpr fun l _ => decide_eq_true (h l.1)
  cases o
  simpa [without] using hlisteners

theorem without_without (o : Observable α L) (id : ObservableId) (gone more : List Subscription) :
    (o.without id gone).without id more = o.without id (gone ++ more) := by
  simp [without, List.filter_filter, Bool.and_comm]

theorem without_of_ne {o : Observable α L} {id : ObservableId} {s : Subscription}
    (h : s.observable ≠ id) : o.without id [s] = o := by
  refine without_eq_self fun number hmem => h ?_
  rw [← List.mem_singleton.mp hmem]

theorem without_eq_unsubscribe (o : Observable α L) (s : Subscription) :
    o.without s.observable [s] = o.unsubscribe s.number := by
  have hsame (l : Nat × L) : (⟨s.observable, l.1⟩ : Subscription) = s ↔ l.1 = s.number := by
    cases s
    simp
  simp [without, unsubscribe, hsame, bne, beq_eq_decide]

end Observable

namespace Registry

variable {r : Registry α L}

/-- The subscriptions of the hook with the given id, if there is one. -/
def hookSubscriptions (r : Registry α L) (hook : HookId) : List Subscription :=
  ((r.hook? hook).map (·.subscriptions)).getD []

theorem hookSubscriptions_of_hook? {id : HookId} {hook : Hook L} (h : r.hook? id = some hook) :
    r.hookSubscriptions id = hook.subscriptions := by
  simp [hookSubscriptions, h]

theorem lt_of_observable? {id : ObservableId} {o : Observable α L} (h : r.observable? id = some o) :
    id < r.observables.length :=
  lt_length_of_join_getElem? h

theorem lt_of_hook? {id : HookId} {hook : Hook L} (h : r.hook? id = some hook) :
    id < r.hooks.length :=
  lt_length_of_join_getElem? h

theorem observable?_create (value : α) (id : ObservableId) :
    (r.create value).1.observable? id =
      if id = r.observables.length then some (.of value) else r.observable? id :=
  join_getElem?_concat ..

theorem observable?_put {id : ObservableId} (h : id < r.observables.length) (o : Observable α L)
    (other : ObservableId) :
    (r.put id o).observable? other = if id = other then some o else r.observable? other :=
  join_getElem?_set h ..

theorem observable?_drop (id other : ObservableId) :
    (r.drop id).observable? other = if id = other then none else r.observable? other :=
  join_getElem?_set_none ..

theorem hook?_createHook (callback : L) (id : HookId) :
    (r.createHook callback).1.hook? id =
      if id = r.hooks.length then some (.of callback) else r.hook? id :=
  join_getElem?_concat ..

theorem hook?_putHook {id : HookId} (h : id < r.hooks.length) (hook : Hook L) (other : HookId) :
    (r.putHook id hook).hook? other = if id = other then some hook else r.hook? other :=
  join_getElem?_set h ..

theorem observable?_unsubscribe (s : Subscription) (id : ObservableId) :
    (r.unsubscribe s).observable? id = (r.observable? id).map (·.without id [s]) := by
  unfold unsubscribe
  cases ho : r.observable? s.observable with
  | none =>
    by_cases hid : s.observable = id
    · simp [← hid, ho]
    · cases r.observable? id <;> simp [Observable.without_of_ne hid]
  | some o =>
    simp only [observable?_put (lt_of_observable? ho)]
    by_cases hid : s.observable = id
    · simp [← hid, ho, Observable.without_eq_unsubscribe]
    · cases r.observable? id <;> simp [Observable.without_of_ne hid, hid]

theorem observable?_foldl_unsubscribe (gone : List Subscription) (id : ObservableId) :
    (gone.foldl unsubscribe r).observable? id = (r.observable? id).map (·.without id gone) := by
  induction gone generalizing r with
  | nil => simp [Observable.without_eq_self]
  | cons s gone ih =>
    rw [List.foldl_cons, ih, observable?_unsubscribe, Option.map_map]
    simp [Function.comp_def, Observable.without_without]

@[simp] theorem hooks_unsubscribe (s : Subscription) : (r.unsubscribe s).hooks = r.hooks := by
  unfold unsubscribe
  split <;> rfl

@[simp] theorem hooks_foldl_unsubscribe (gone : List Subscription) :
    (gone.foldl unsubscribe r).hooks = r.hooks := by
  induction gone generalizing r with
  | nil => rfl
  | cons s gone ih => rw [List.foldl_cons, ih, hooks_unsubscribe]

@[simp] theorem length_unsubscribe (s : Subscription) :
    (r.unsubscribe s).observables.length = r.observables.length := by
  unfold unsubscribe
  split <;> simp [put]

@[simp] theorem length_foldl_unsubscribe (gone : List Subscription) :
    (gone.foldl unsubscribe r).observables.length = r.observables.length := by
  induction gone generalizing r with
  | nil => rfl
  | cons s gone ih => rw [List.foldl_cons, ih, length_unsubscribe]

/-- Disposing of a hook takes its subscriptions, and no others, from every observable. -/
theorem observable?_disposeHook (hook : HookId) (id : ObservableId) :
    (r.disposeHook hook).observable? id =
      (r.observable? id).map (·.without id (r.hookSubscriptions hook)) := by
  unfold disposeHook
  cases hhook : r.hook? hook with
  | none => cases r.observable? id <;> simp [hookSubscriptions, hhook, Observable.without_eq_self]
  | some h => exact hookSubscriptions_of_hook? hhook ▸ observable?_foldl_unsubscribe _ id

@[simp] theorem length_disposeHook (hook : HookId) :
    (r.disposeHook hook).observables.length = r.observables.length := by
  unfold disposeHook
  split <;> simp [putHook]

theorem hook?_disposeHook (hook id : HookId) :
    (r.disposeHook hook).hook? id =
      if hook = id then (r.hook? id).map fun h => { h with subscriptions := [] }
      else r.hook? id := by
  unfold disposeHook
  cases hhook : r.hook? hook with
  | none => grind
  | some h =>
    rw [hook?_putHook (by simpa using lt_of_hook? hhook)]
    simp only [hook?, hooks_foldl_unsubscribe]
    grind [hook?]

theorem hook?_dropHook (hook id : HookId) :
    (r.dropHook hook).hook? id = if hook = id then none else r.hook? id := by
  have hdrop : (r.dropHook hook).hook? id =
      if hook = id then none else (r.disposeHook hook).hook? id := join_getElem?_set_none ..
  rw [hdrop, hook?_disposeHook]
  split <;> rfl

theorem watch_eq {hook : HookId} {id : ObservableId} {h : Hook L} {o : Observable α L}
    (hhook : r.hook? hook = some h) (ho : r.observable? id = some o)
    (hwatches : h.watches id = false) :
    r.watch hook id = (r.put id (o.subscribe h.callback).1).putHook hook
      { h with subscriptions := h.subscriptions ++ [⟨id, o.issued + 1⟩] } := by
  simp [watch, hhook, ho, hwatches, Observable.subscribe]

theorem hookSubscriptions_congr {r' : Registry α L} (h : r.hooks = r'.hooks) (hook : HookId) :
    r.hookSubscriptions hook = r'.hookSubscriptions hook := by
  simp [hookSubscriptions, hook?, h]

@[simp] theorem hookSubscriptions_put (id : ObservableId) (o : Observable α L) (hook : HookId) :
    (r.put id o).hookSubscriptions hook = r.hookSubscriptions hook := rfl

theorem hookSubscriptions_createHook (callback : L) (hook : HookId) :
    (r.createHook callback).1.hookSubscriptions hook = r.hookSubscriptions hook := by
  have hnew : r.hook? r.hooks.length = none := by simp [hook?]
  unfold hookSubscriptions
  rw [hook?_createHook]
  split
  next hid => simp [hid, hnew, Hook.of]
  next => rfl

theorem hookSubscriptions_putHook {id : HookId} (h : id < r.hooks.length) (k : Hook L)
    (hook : HookId) :
    (r.putHook id k).hookSubscriptions hook =
      if id = hook then k.subscriptions else r.hookSubscriptions hook := by
  unfold hookSubscriptions
  rw [hook?_putHook h]
  split <;> rfl

theorem hookSubscriptions_disposeHook (gone hook : HookId) :
    (r.disposeHook gone).hookSubscriptions hook =
      if gone = hook then [] else r.hookSubscriptions hook := by
  unfold hookSubscriptions
  rw [hook?_disposeHook]
  split
  next => cases r.hook? hook <;> rfl
  next => rfl

theorem hookSubscriptions_dropHook (gone hook : HookId) :
    (r.dropHook gone).hookSubscriptions hook =
      if gone = hook then [] else r.hookSubscriptions hook := by
  unfold hookSubscriptions
  rw [hook?_dropHook]
  split <;> rfl

/-- What was given out: the observable was made, and the number is none that is yet to come. -/
structure Issued (r : Registry α L) (s : Subscription) : Prop where
  observable_lt : s.observable < r.observables.length
  number_le : ∀ {o}, r.observable? s.observable = some o → s.number ≤ o.issued

end Registry

/-! ## Writes -/

/-- A write to an observable. -/
inductive Change (α : Type _) where
  | set (value : α)
  | replace (value : α)
  | update (change : α → α)
  /-- A change that reports whether there is something to tell. -/
  | updateIf (change : α → α × Bool)

namespace Change

/-- Makes the write. -/
def apply : Change α → Observable α L → Written (Observable α L) L Unit
  | set value, o => o.set value
  | replace value, o => (o.replace value).returning fun _ => ()
  | update change, o => (o.update change).returning fun _ => ()
  | updateIf change, o => (o.updateWhen change).returning fun _ => ()

/-- The value afterwards. -/
def value : Change α → α → α
  | set value, _ | replace value, _ => value
  | update change, old => change old
  | updateIf change, old => (change old).1

/-- Whether listeners are to be called. -/
def notifies : Change α → α → Bool
  | updateIf change, old => (change old).2
  | set _, _ | replace _, _ | update _, _ => true

@[simp] theorem state_apply (change : Change α) (o : Observable α L) :
    (change.apply o).state = { o with value := change.value o.value } := by
  cases change with
  | updateIf change =>
    simp only [apply, Written.returning, Observable.updateWhen]
    split <;> rfl
  | _ => rfl

/-- Every listener is called once and in order, or none at all. -/
theorem called_apply (change : Change α) (o : Observable α L) :
    (change.apply o).called =
      if change.notifies o.value then o.listeners.map (·.2) else [] := by
  cases change with
  | updateIf change =>
    simp only [apply, Written.returning, Observable.updateWhen]
    split <;> simp_all [Observable.write, notifies]
  | _ => rfl

end Change

/-! ## Calls -/

/-- A call to a registry, or to a subscription that was given out. -/
inductive RegistryCall (α L : Type _) where
  | create (value : α)
  | drop (id : ObservableId)
  | subscribe (id : ObservableId) (listener : L)
  /-- Disposes of a subscription, or drops it. -/
  | dispose (handle : Nat)
  | detach (handle : Nat)
  | createHook (callback : L)
  /-- Reads an observable, through a hook if one is given. -/
  | read (id : ObservableId) (hook : Option HookId)
  | disposeHook (hook : HookId)
  | dropHook (hook : HookId)
  | write (id : ObservableId) (change : Change α)

/-- A registry and the subscriptions that were given out. -/
structure Custody (α L : Type _) where
  registry : Registry α L
  /-- Every subscription given out, oldest first, or `none` where it is not held any more. -/
  held : List (Option Subscription)

/-- What keeps a subscription: whom it was given to, or a hook. -/
inductive Holder where
  | handle (n : Nat)
  | hook (id : HookId)
  deriving DecidableEq

/-- A subscription with what keeps it and whom it is to call. -/
structure Enrolled (L : Type _) where
  subscription : Subscription
  holder : Holder
  listener : L

namespace Enrolled

/-- The subscription as the observable lists it. -/
def listing (e : Enrolled L) : Nat × L := (e.subscription.number, e.listener)

end Enrolled

namespace Custody

/-- Nothing yet. -/
def empty : Custody α L := ⟨.empty, []⟩

/-- The subscription that was given out as the `n`-th, if it is still held. -/
def handle? (c : Custody α L) (n : Nat) : Option Subscription := c.held[n]?.join

/-- What comes of a call. -/
def step (c : Custody α L) : RegistryCall α L → Custody α L
  | .create value => { c with registry := (c.registry.create value).1 }
  | .drop id => { c with registry := c.registry.drop id }
  | .subscribe id listener =>
    match c.registry.subscribe? id listener with
    | some (registry, s) => { registry, held := c.held ++ [some s] }
    | none => c
  | .dispose n =>
    match c.handle? n with
    | some s => { registry := c.registry.unsubscribe s, held := c.held.set n none }
    | none => c
  | .detach n => { c with held := c.held.set n none }
  | .createHook callback => { c with registry := (c.registry.createHook callback).1 }
  | .read id (some hook) => { c with registry := c.registry.watch hook id }
  | .read _ none => c
  | .disposeHook hook => { c with registry := c.registry.disposeHook hook }
  | .dropHook hook => { c with registry := c.registry.dropHook hook }
  | .write id change =>
    match c.registry.write? id change.apply with
    | some w => { c with registry := w.state }
    | none => c

/-- What comes of calls one after the other. -/
def run (c : Custody α L) (calls : List (RegistryCall α L)) : Custody α L := calls.foldl step c

/-- What comes of calls when there is nothing yet. -/
def reached (calls : List (RegistryCall α L)) : Custody α L := empty.run calls

@[simp] theorem reached_concat (calls : List (RegistryCall α L)) (call : RegistryCall α L) :
    reached (calls ++ [call]) = (reached calls).step call := by
  simp [reached, run]

/-- The subscriptions that something keeps. -/
def subscriptionsOf (c : Custody α L) : Holder → List Subscription
  | .handle n => (c.handle? n).toList
  | .hook hook => c.registry.hookSubscriptions hook

/-- What loses its subscriptions by a call. -/
def ended? (c : Custody α L) : RegistryCall α L → Option Holder
  | .dispose n => if (c.handle? n).isSome then some (.handle n) else none
  | .disposeHook hook | .dropHook hook => some (.hook hook)
  | _ => none

/-- The subscriptions that a call ends. -/
def ended (c : Custody α L) (call : RegistryCall α L) : List Subscription :=
  (c.ended? call).elim [] c.subscriptionsOf

/-- The subscription that a call begins. -/
def begun? (c : Custody α L) : RegistryCall α L → Option (Enrolled L)
  | .subscribe id listener =>
    (c.registry.observable? id).map fun o => ⟨⟨id, o.issued + 1⟩, .handle c.held.length, listener⟩
  | .read id (some hook) =>
    match c.registry.hook? hook, c.registry.observable? id with
    | some h, some o =>
      if h.watches id then none else some ⟨⟨id, o.issued + 1⟩, .hook hook, h.callback⟩
    | _, _ => none
  | _ => none

variable {c : Custody α L} {call : RegistryCall α L}

open Registry

/-! ### What a call can do -/

theorem eq_read_of_begun? {id : ObservableId} {hook? : Option HookId} {e : Enrolled L}
    (h : c.begun? (.read id hook?) = some e) :
    ∃ hook, ∃ k : Hook L, ∃ o, hook? = some hook ∧ c.registry.hook? hook = some k ∧
      c.registry.observable? id = some o ∧ k.watches id = false ∧
      e = ⟨⟨id, o.issued + 1⟩, .hook hook, k.callback⟩ := by
  cases hook? with
  | none => nomatch h
  | some hook =>
    unfold begun? at h
    grind

theorem step_read_of_begun? {id : ObservableId} {hook? : Option HookId}
    (h : c.begun? (.read id hook?) = none) : c.step (.read id hook?) = c := by
  cases hook? with
  | none => rfl
  | some hook =>
    have hwatch : c.registry.watch hook id = c.registry := by
      unfold begun? at h
      unfold watch
      grind
    simp [step, hwatch]

/-- A call that begins a subscription puts it behind the others of its observable, under the next
number, and changes no other observable. -/
theorem observable?_step_of_begun? {e : Enrolled L} (h : c.begun? call = some e) :
    ∃ o, c.registry.observable? e.subscription.observable = some o ∧
      e.subscription.number = o.issued + 1 ∧
      ∀ id, (c.step call).registry.observable? id =
        if e.subscription.observable = id then some (o.subscribe e.listener).1
        else c.registry.observable? id := by
  cases call with
  | subscribe id listener =>
    obtain ⟨o, ho, rfl⟩ := Option.map_eq_some_iff.mp h
    refine ⟨o, ho, rfl, fun other => ?_⟩
    have hstep : (c.step (.subscribe id listener)).registry =
        c.registry.put id (o.subscribe listener).1 := by simp [step, subscribe?, ho]
    rw [hstep, observable?_put (lt_of_observable? ho)]
  | read id hook? =>
    obtain ⟨hook, k, o, rfl, hhook, ho, hwatches, rfl⟩ := eq_read_of_begun? h
    refine ⟨o, ho, rfl, fun other => ?_⟩
    rw [step, watch_eq hhook ho hwatches]
    exact observable?_put (lt_of_observable? ho) _ other
  | _ => nomatch h

/-- A call that begins nothing makes an observable without listeners, or takes from each of those
that it leaves the subscriptions that it ends. -/
theorem observable?_step_of_not_begun? {id : ObservableId} {o' : Observable α L}
    (h : c.begun? call = none) (ho' : (c.step call).registry.observable? id = some o') :
    (c.registry.observables.length ≤ id ∧ o'.listeners = []) ∨
    ∃ o, c.registry.observable? id = some o ∧ o'.issued = o.issued ∧
      o'.listeners = (o.without id (c.ended call)).listeners := by
  have same (hended : c.ended? call = none) (ho : c.registry.observable? id = some o') :
      ∃ o, c.registry.observable? id = some o ∧ o'.issued = o.issued ∧
        o'.listeners = (o.without id (c.ended call)).listeners :=
    ⟨o', ho, rfl, by simp [ended, hended, Observable.without_eq_self]⟩
  cases call with
  | create value =>
    rw [step, observable?_create] at ho'
    split at ho'
    next hid =>
      cases ho'
      exact .inl ⟨hid ▸ Nat.le_refl _, rfl⟩
    next => exact .inr (same rfl ho')
  | drop gone =>
    rw [step, observable?_drop] at ho'
    split at ho'
    · nomatch ho'
    · exact .inr (same rfl ho')
  | subscribe observable listener =>
    have ho : c.registry.observable? observable = none := Option.map_eq_none_iff.mp h
    have hstep : c.step (.subscribe observable listener) = c := by simp [step, subscribe?, ho]
    exact .inr (same rfl (hstep ▸ ho'))
  | dispose n =>
    cases hn : c.handle? n with
    | none =>
      rw [step, hn] at ho'
      exact .inr (same (by simp [ended?, hn]) ho')
    | some s =>
      simp only [step, hn, observable?_unsubscribe] at ho'
      obtain ⟨o, ho, rfl⟩ := Option.map_eq_some_iff.mp ho'
      exact .inr ⟨o, ho, rfl, by simp [ended, ended?, hn, subscriptionsOf]⟩
  | read observable hook? => exact .inr (same rfl (step_read_of_begun? h ▸ ho'))
  | disposeHook hook =>
    obtain ⟨o, ho, rfl⟩ :=
      Option.map_eq_some_iff.mp ((observable?_disposeHook hook id).symm.trans ho')
    exact .inr ⟨o, ho, rfl, rfl⟩
  | dropHook hook =>
    obtain ⟨o, ho, rfl⟩ :=
      Option.map_eq_some_iff.mp ((observable?_disposeHook hook id).symm.trans ho')
    exact .inr ⟨o, ho, rfl, rfl⟩
  | write observable change =>
    cases ho : c.registry.observable? observable with
    | none =>
      have hstep : c.step (.write observable change) = c := by simp [step, write?, ho]
      exact .inr (same rfl (hstep ▸ ho'))
    | some o =>
      simp only [step, write?, ho, Option.map_some, Change.state_apply,
        observable?_put (lt_of_observable? ho)] at ho'
      split at ho'
      next hid =>
        cases ho'
        subst hid
        exact .inr ⟨o, ho, rfl, by simp [ended, ended?, Observable.without_eq_self]⟩
      next => exact .inr (same rfl ho')
  | detach _ | createHook _ => exact .inr (same rfl ho')

/-- No call both ends and begins subscriptions. -/
theorem ended?_of_begun? {e : Enrolled L} (h : c.begun? call = some e) : c.ended? call = none := by
  cases call with
  | subscribe | read => rfl
  | _ => nomatch h

/-- The subscription that a call begins with one observable, if it does. -/
def begunWith (c : Custody α L) (call : RegistryCall α L) (id : ObservableId) :
    List (Enrolled L) :=
  (c.begun? call).toList.filter (·.subscription.observable = id)

/-- The listeners of an observable after a call: nobody, if it is a new one; else those before
without the subscriptions that the call ends, and then the one that it begins. -/
theorem listeners_step {id : ObservableId} {o' : Observable α L}
    (ho' : (c.step call).registry.observable? id = some o') :
    (c.registry.observables.length ≤ id ∧ o'.listeners = []) ∨
    ∃ o, c.registry.observable? id = some o ∧
      o'.issued = o.issued + (c.begunWith call id).length ∧
      o'.listeners = (o.without id (c.ended call)).listeners ++
        (c.begunWith call id).map Enrolled.listing := by
  cases hbegun : c.begun? call with
  | none =>
    have hnone : c.begunWith call id = [] := by simp [begunWith, hbegun]
    simpa [hnone] using observable?_step_of_not_begun? hbegun ho'
  | some e =>
    obtain ⟨o, ho, hnumber, hstep⟩ := observable?_step_of_begun? hbegun
    have hended (o : Observable α L) : o.without id (c.ended call) = o :=
      Observable.without_eq_self (by simp [ended, ended?_of_begun? hbegun])
    right
    rw [hstep] at ho'
    split at ho'
    next hid =>
      obtain rfl : (o.subscribe e.listener).1 = o' := Option.some.inj ho'
      refine ⟨o, hid ▸ ho, ?_, ?_⟩
      · simp [begunWith, hbegun, hid, Observable.subscribe]
      · simp [begunWith, hbegun, hid, hended, hnumber, Observable.subscribe, Enrolled.listing]
    next hid =>
      have hnone : c.begunWith call id = [] := by simp [begunWith, hbegun, hid]
      exact ⟨o', ho', by simp [hnone], by simp [hnone, hended]⟩

theorem length_step :
    c.registry.observables.length ≤ (c.step call).registry.observables.length := by
  cases call with
  | create value => simp [step, create]
  | drop id => simp [step, drop]
  | subscribe id listener =>
    cases ho : c.registry.observable? id <;> simp [step, subscribe?, ho, put]
  | dispose n => cases hn : c.handle? n <;> simp [step, hn]
  | read id hook? =>
    cases hbegun : c.begun? (.read id hook?) with
    | none => exact (step_read_of_begun? hbegun).symm ▸ Nat.le_refl _
    | some e =>
      obtain ⟨hook, k, o, rfl, hhook, ho, hwatches, -⟩ := eq_read_of_begun? hbegun
      simp [step, watch_eq hhook ho hwatches, put, putHook]
  | disposeHook hook => simp [step]
  | dropHook hook => simp [step, dropHook]
  | write id change =>
    cases ho : c.registry.observable? id <;> simp [step, write?, ho, put]
  | detach _ | createHook _ => exact Nat.le_refl _

/-- What was given out stays so. -/
theorem issued_step {s : Subscription} (h : c.registry.Issued s) :
    (c.step call).registry.Issued s where
  observable_lt := Nat.lt_of_lt_of_le h.observable_lt length_step
  number_le := by
    intro o' ho'
    obtain ⟨hle, -⟩ | ⟨o, ho, hissued, -⟩ := listeners_step ho'
    · exact absurd h.observable_lt (Nat.not_lt.mpr hle)
    · have := h.number_le ho
      omega

theorem not_issued_of_begun? {e : Enrolled L} (h : c.begun? call = some e) :
    ¬ c.registry.Issued e.subscription := by
  obtain ⟨o, ho, hnumber, -⟩ := observable?_step_of_begun? h
  intro hissued
  have := hissued.number_le ho
  omega

theorem issued_of_begun? {e : Enrolled L} (h : c.begun? call = some e) :
    (c.step call).registry.Issued e.subscription := by
  obtain ⟨o, ho, hnumber, hstep⟩ := observable?_step_of_begun? h
  refine ⟨Nat.lt_of_lt_of_le (lt_of_observable? ho) length_step, fun ho' => ?_⟩
  rw [hstep, if_pos rfl] at ho'
  cases ho'
  exact Nat.le_of_eq hnumber

/-- The subscriptions of a hook after a call: those before, unless the call ends them, and the one
that it begins for the hook. -/
theorem hookSubscriptions_step (hook : HookId) :
    (c.step call).registry.hookSubscriptions hook =
      (if c.ended? call = some (.hook hook) then [] else c.registry.hookSubscriptions hook) ++
        ((c.begun? call).toList.filter (·.holder = .hook hook)).map (·.subscription) := by
  cases call with
  | subscribe id listener =>
    have hhooks : (c.step (.subscribe id listener)).registry.hooks = c.registry.hooks := by
      cases ho : c.registry.observable? id <;> simp [step, subscribe?, ho, put]
    rw [hookSubscriptions_congr hhooks]
    cases ho : c.registry.observable? id <;> simp [ended?, begun?, ho]
  | dispose n =>
    have hhooks : (c.step (.dispose n)).registry.hooks = c.registry.hooks := by
      cases hn : c.handle? n <;> simp [step, hn]
    rw [hookSubscriptions_congr hhooks]
    cases hn : c.handle? n <;> simp [ended?, begun?, hn]
  | createHook callback => simp [step, ended?, begun?, hookSubscriptions_createHook]
  | read id hook? =>
    cases hbegun : c.begun? (.read id hook?) with
    | none => simp [step_read_of_begun? hbegun, ended?]
    | some e =>
      obtain ⟨reader, k, o, rfl, hhook, ho, hwatches, rfl⟩ := eq_read_of_begun? hbegun
      have hlt : reader < (c.registry.put id (o.subscribe k.callback).1).hooks.length :=
        lt_of_hook? hhook
      rw [step, watch_eq hhook ho hwatches, hookSubscriptions_putHook hlt]
      by_cases hid : reader = hook
      · simp [ended?, hid, ← hookSubscriptions_of_hook? hhook]
      · simp [ended?, hid]
  | disposeHook gone => simp [step, hookSubscriptions_disposeHook, ended?, begun?]
  | dropHook gone => simp [step, hookSubscriptions_dropHook, ended?, begun?]
  | write id change =>
    have hhooks : (c.step (.write id change)).registry.hooks = c.registry.hooks := by
      cases ho : c.registry.observable? id <;> simp [step, write?, ho, put]
    simp [hookSubscriptions_congr hhooks, ended?, begun?]
  | create _ | drop _ | detach _ => exact (List.append_nil _).symm

/-- What is held after a call: the same as before, one less, or what the call begins besides. -/
theorem held_step :
    ((c.step call).held = c.held ∧ ∀ n, c.ended? call ≠ some (.handle n)) ∨
    (∃ n, (c.step call).held = c.held.set n none ∧
      ∀ m, c.ended? call = some (.handle m) → m = n) ∨
    ∃ e, c.begun? call = some e ∧ e.holder = .handle c.held.length ∧
      (c.step call).held = c.held ++ [some e.subscription] := by
  cases call with
  | subscribe id listener =>
    cases ho : c.registry.observable? id with
    | none => exact .inl ⟨by simp [step, subscribe?, ho], by simp [ended?]⟩
    | some o =>
      refine .inr (.inr ⟨_, by simp [begun?, ho]; rfl, rfl, ?_⟩)
      simp [step, subscribe?, ho, Observable.subscribe]
  | dispose n =>
    cases hn : c.handle? n with
    | none => exact .inl ⟨by simp [step, hn], by simp [ended?, hn]⟩
    | some s => exact .inr (.inl ⟨n, by simp [step, hn], by simp [ended?, hn]⟩)
  | detach n => exact .inr (.inl ⟨n, rfl, nofun⟩)
  | read id hook? =>
    exact .inl ⟨by cases hook? <;> rfl, by simp [ended?]⟩
  | write id change =>
    refine .inl ⟨?_, by simp [ended?]⟩
    cases ho : c.registry.observable? id <;> simp [step, write?, ho]
  | create _ | drop _ | createHook _ | disposeHook _ | dropHook _ =>
    exact .inl ⟨rfl, nofun⟩

theorem lt_of_handle? {n : Nat} {s : Subscription} (h : c.handle? n = some s) :
    n < c.held.length :=
  lt_length_of_join_getElem? h

/-- What begins for somebody is given out behind everything given out before. -/
theorem held_of_begun? {e : Enrolled L} {n : Nat} (h : c.begun? call = some e)
    (hholder : e.holder = .handle n) :
    n = c.held.length ∧ (c.step call).held = c.held ++ [some e.subscription] := by
  cases call with
  | subscribe id listener =>
    obtain ⟨o, ho, rfl⟩ := Option.map_eq_some_iff.mp h
    obtain rfl : c.held.length = n := Holder.handle.inj hholder
    exact ⟨rfl, by simp [step, subscribe?, ho, Observable.subscribe]⟩
  | read id hook? =>
    obtain ⟨hook, k, o, -, -, -, -, rfl⟩ := eq_read_of_begun? h
    nomatch hholder
  | _ => nomatch h

/-- What begins for a hook begins by reading an observable that the hook does not watch yet. -/
theorem reads_of_begun? {e : Enrolled L} {hook : HookId} (h : c.begun? call = some e)
    (hholder : e.holder = .hook hook) :
    call = .read e.subscription.observable (some hook) ∧
    (c.registry.observable? e.subscription.observable).isSome ∧
    ∃ k, c.registry.hook? hook = some k ∧ k.watches e.subscription.observable = false := by
  cases call with
  | subscribe id listener =>
    obtain ⟨o, -, rfl⟩ := Option.map_eq_some_iff.mp h
    nomatch hholder
  | read id hook? =>
    obtain ⟨reader, k, o, rfl, hhook, ho, hwatches, rfl⟩ := eq_read_of_begun? h
    obtain rfl : reader = hook := Holder.hook.inj hholder
    exact ⟨rfl, Option.isSome_of_eq_some ho, k, hhook, hwatches⟩
  | _ => nomatch h

theorem ended?_eq_hook_iff {hook : HookId} :
    c.ended? call = some (.hook hook) ↔ call = .disposeHook hook ∨ call = .dropHook hook := by
  cases call with
  | dispose n => cases hn : c.handle? n <;> simp [ended?, hn]
  | _ => simp [ended?]

theorem handle?_isSome_of_ended? {n : Nat} (h : c.ended? call = some (.handle n)) :
    (c.handle? n).isSome := by
  cases call with
  | dispose m =>
    unfold ended? at h
    grind
  | _ => nomatch h

/-- What is held after a call was held before and is not ended by it, or begins with it. -/
theorem handle?_step {n : Nat} {s : Subscription} (h : (c.step call).handle? n = some s) :
    c.handle? n = some s ∧ c.ended? call ≠ some (.handle n) ∨
    ∃ e, c.begun? call = some e ∧ e.holder = .handle n ∧ e.subscription = s := by
  unfold handle? at h ⊢
  obtain ⟨hheld, hended⟩ | ⟨m, hheld, hended⟩ | ⟨e, hbegun, hholder, hheld⟩ := held_step
  · exact .inl ⟨hheld ▸ h, hended n⟩
  · rw [hheld, join_getElem?_set_none] at h
    split at h
    next => nomatch h
    next hne => exact .inl ⟨h, fun heq => hne (hended n heq).symm⟩
  · rw [hheld, join_getElem?_concat] at h
    split at h
    next hn => exact .inr ⟨e, hbegun, hn ▸ hholder, Option.some.inj h⟩
    next => exact .inl ⟨h, by simp [ended?_of_begun? hbegun]⟩

theorem held_length_step : c.held.length ≤ (c.step call).held.length := by
  obtain ⟨hheld, -⟩ | ⟨m, hheld, -⟩ | ⟨e, -, -, hheld⟩ := @held_step _ _ c call <;> simp [hheld]

end Custody

end Palette
