import Mathlib.Data.List.Nodup
import Palette.Proofs.Observable.Calls

/-!
# Who is subscribed

Who is subscribed is kept twice: an observable lists its listeners by number, and a hook, or whoever
subscribed, has the subscriptions that these numbers belong to. Neither table knows what the other
one says. The roster says both at once: it lists everyone who is subscribed anywhere, in the order
of subscribing, and a call changes it by what the call says and nothing else (`Custody.enroll`).

The two tables agree with the roster after any calls (`Agrees`), and so with each other.

Main statement: `Custody.bookkeeping_exact`.
-/

namespace Palette

variable {α L : Type _}

open Registry

namespace Custody

/-! ## The roster -/

/-- Who is subscribed after a call. Who subscribes to an observable comes last, a hook only if it
is not subscribed to it already; what is disposed of is crossed out. -/
def enroll (c : Custody α L) (roster : List (Enrolled L)) : RegistryCall α L → List (Enrolled L)
  | .subscribe id listener =>
    match c.registry.observable? id with
    | some o => roster ++ [⟨⟨id, o.issued + 1⟩, .handle c.held.length, listener⟩]
    | none => roster
  | .read id (some hook) =>
    match c.registry.hook? hook, c.registry.observable? id with
    | some k, some o =>
      if roster.any fun e => e.holder = .hook hook ∧ e.subscription.observable = id then roster
      else roster ++ [⟨⟨id, o.issued + 1⟩, .hook hook, k.callback⟩]
    | _, _ => roster
  | .dispose n =>
    match c.handle? n with
    | some _ => roster.filter (·.holder ≠ .handle n)
    | none => roster
  | .disposeHook hook | .dropHook hook => roster.filter (·.holder ≠ .hook hook)
  | _ => roster

/-- Who is subscribed after calls one after the other. -/
def enrollAll (c : Custody α L) (roster : List (Enrolled L)) :
    List (RegistryCall α L) → List (Enrolled L)
  | [] => roster
  | call :: calls => (c.step call).enrollAll (c.enroll roster call) calls

/-- Who is subscribed after calls when there was nothing before. -/
def enrolled (calls : List (RegistryCall α L)) : List (Enrolled L) := empty.enrollAll [] calls

/-! ## What agrees with it -/

/-- Listeners, hooks and what is held say the same as the roster. -/
structure Agrees (c : Custody α L) (roster : List (Enrolled L)) : Prop where
  listeners : ∀ {id o}, c.registry.observable? id = some o →
    o.listeners = (roster.filter (·.subscription.observable = id)).map Enrolled.listing
  hooks : ∀ hook, c.registry.hookSubscriptions hook =
    (roster.filter (·.holder = .hook hook)).map (·.subscription)
  handles : ∀ {n s}, c.handle? n = some s →
    (roster.filter (·.holder = .handle n)).map (·.subscription) = [s]
  /-- No subscription is given to two. -/
  distinct : (roster.map (·.subscription)).Nodup
  /-- Nobody is subscribed to an observable twice. -/
  once : (roster.map fun e => (e.holder, e.subscription.observable)).Nodup
  issued : ∀ e ∈ roster, c.registry.Issued e.subscription
  handed : ∀ e ∈ roster, ∀ {n}, e.holder = .handle n → n < c.held.length

variable {c : Custody α L} {call : RegistryCall α L} {roster : List (Enrolled L)}

namespace Agrees

theorem subscriptionsOf_of_ended? (h : Agrees c roster) {holder : Holder}
    (hended : c.ended? call = some holder) :
    c.subscriptionsOf holder = (roster.filter (·.holder = holder)).map (·.subscription) := by
  cases holder with
  | handle n =>
    obtain ⟨s, hs⟩ := Option.isSome_iff_exists.mp (handle?_isSome_of_ended? hended)
    simp [subscriptionsOf, hs, h.handles hs]
  | hook hook => exact h.hooks hook

/-- A call ends the subscriptions of those whom it crosses out, and no others. -/
theorem mem_ended_iff (h : Agrees c roster) {e : Enrolled L} (he : e ∈ roster) :
    e.subscription ∈ c.ended call ↔ c.ended? call = some e.holder := by
  cases hended : c.ended? call with
  | none => simp [ended, hended]
  | some holder =>
    simp only [ended, hended, Option.elim_some, h.subscriptionsOf_of_ended? hended, List.mem_map,
      List.mem_filter, decide_eq_true_eq, Option.some.injEq]
    constructor
    · rintro ⟨e', ⟨he', hholder⟩, hsame⟩
      obtain rfl : e' = e := List.inj_on_of_nodup_map h.distinct he' he hsame
      exact hholder.symm
    · rintro rfl
      exact ⟨e, ⟨he, rfl⟩, rfl⟩

/-- A hook watches an observable if the roster has it. -/
theorem watches_iff (h : Agrees c roster) {hook : HookId} {k : Hook L}
    (hhook : c.registry.hook? hook = some k) (id : ObservableId) :
    k.watches id = true ↔
      ∃ e ∈ roster, e.holder = .hook hook ∧ e.subscription.observable = id := by
  have hsubscriptions := (hookSubscriptions_of_hook? hhook).symm.trans (h.hooks hook)
  simp only [Hook.watches, hsubscriptions, List.any_map, List.any_filter, List.any_eq_true]
  simp

/-- Those crossed out are those whose subscriptions the call ends, and the one entered is the one
whose subscription it begins. -/
theorem enroll_eq (h : Agrees c roster) (call : RegistryCall α L) :
    c.enroll roster call =
      roster.filter (fun e => c.ended? call ≠ some e.holder) ++ (c.begun? call).toList := by
  cases call with
  | subscribe id listener =>
    cases ho : c.registry.observable? id <;> simp [enroll, ended?, begun?, ho]
  | dispose n => cases hn : c.handle? n <;> simp [enroll, ended?, begun?, hn, eq_comm]
  | read id hook? =>
    cases hook? with
    | none => simp [enroll, ended?, begun?]
    | some hook =>
      cases hhook : c.registry.hook? hook with
      | none => simp [enroll, ended?, begun?, hhook]
      | some k =>
        cases ho : c.registry.observable? id with
        | none => simp [enroll, ended?, begun?, hhook, ho]
        | some o =>
          have hwatches := h.watches_iff hhook id
          cases hk : k.watches id <;> simp_all [enroll, ended?, begun?]
  | disposeHook hook => simp [enroll, ended?, begun?, eq_comm]
  | dropHook hook => simp [enroll, ended?, begun?, eq_comm]
  | create _ | drop _ | detach _ | createHook _ | write _ _ => simp [enroll, ended?, begun?]

/-! ### After a call -/

theorem listeners_enroll (h : Agrees c roster) {id : ObservableId} {o' : Observable α L}
    (ho' : (c.step call).registry.observable? id = some o') :
    o'.listeners =
      ((c.enroll roster call).filter (·.subscription.observable = id)).map Enrolled.listing := by
  rw [h.enroll_eq, List.filter_append, List.map_append]
  obtain ⟨hnew, hnone⟩ | ⟨o, ho, -, hlisteners⟩ := listeners_step ho'
  · -- nobody can have subscribed to an observable that was not there
    have hroster : ∀ e ∈ roster, e.subscription.observable ≠ id := fun e he hid =>
      absurd (h.issued e he).observable_lt (Nat.not_lt.mpr (hid ▸ hnew))
    have hbegun : ∀ e, c.begun? call = some e → e.subscription.observable ≠ id := by
      intro e hbegun hid
      obtain ⟨o, ho, -⟩ := observable?_step_of_begun? hbegun
      exact absurd (lt_of_observable? ho) (Nat.not_lt.mpr (hid ▸ hnew))
    have hnobody : roster.filter (·.subscription.observable = id) = [] :=
      List.filter_eq_nil_iff.mpr (by simpa using hroster)
    have hnobody' : (c.begun? call).toList.filter (·.subscription.observable = id) = [] :=
      List.filter_eq_nil_iff.mpr (by simpa using hbegun)
    rw [List.filter_comm, hnobody, hnobody', hnone]
    rfl
  · rw [hlisteners]
    congr 1
    simp only [Observable.without, h.listeners ho, List.filter_map, List.filter_filter]
    congr 1
    refine List.filter_congr fun e he => ?_
    by_cases hid : e.subscription.observable = id
    · have hsame : (⟨id, e.listing.1⟩ : Subscription) = e.subscription := by
        rw [← hid, Enrolled.listing]
      simp [hid, hsame, h.mem_ended_iff he]
    · simp [hid]

/-- What something keeps after a call: what it kept before, unless the call ends that, and what the
call begins for it. -/
theorem filter_enroll (h : Agrees c roster) (holder : Holder) :
    (c.enroll roster call).filter (·.holder = holder) =
      (if c.ended? call = some holder then [] else roster.filter (·.holder = holder)) ++
        (c.begun? call).toList.filter (·.holder = holder) := by
  rw [h.enroll_eq, List.filter_append, List.filter_filter]
  congr 1
  split
  next hended => simp +contextual [hended, List.filter_eq_nil_iff]
  next hended =>
    refine List.filter_congr fun e _ => ?_
    by_cases hholder : e.holder = holder <;> simp [hholder, hended]

theorem hooks_enroll (h : Agrees c roster) (hook : HookId) :
    (c.step call).registry.hookSubscriptions hook =
      ((c.enroll roster call).filter (·.holder = .hook hook)).map (·.subscription) := by
  rw [h.filter_enroll, List.map_append, hookSubscriptions_step, h.hooks]
  split <;> rfl

theorem handles_enroll (h : Agrees c roster) {n : Nat} {s : Subscription}
    (hs : (c.step call).handle? n = some s) :
    ((c.enroll roster call).filter (·.holder = .handle n)).map (·.subscription) = [s] := by
  rw [h.filter_enroll]
  obtain ⟨hbefore, hended⟩ | ⟨e, hbegun, hholder, rfl⟩ := handle?_step hs
  · have hbegun : (c.begun? call).toList.filter (·.holder = .handle n) = [] := by
      refine List.filter_eq_nil_iff.mpr fun e he hholder => ?_
      have hn := held_of_begun? (Option.mem_toList.mp he) (of_decide_eq_true hholder)
      exact Nat.ne_of_lt (lt_of_handle? hbefore) hn.1
    rw [if_neg hended, hbegun, List.append_nil, h.handles hbefore]
  · have hroster : roster.filter (·.holder = .handle n) = [] := by
      refine List.filter_eq_nil_iff.mpr fun e he hholder' => ?_
      have hn := held_of_begun? hbegun hholder
      exact Nat.ne_of_lt (h.handed e he (of_decide_eq_true hholder')) hn.1
    simp [ended?_of_begun? hbegun, hroster, hbegun, hholder]

/-- A subscription that begins is another than all before. -/
theorem distinct_enroll (h : Agrees c roster) :
    ((c.enroll roster call).map (·.subscription)).Nodup := by
  rw [h.enroll_eq, List.map_append]
  refine List.Nodup.append (h.distinct.sublist (List.filter_sublist.map _)) ?_ ?_
  · cases c.begun? call <;> simp
  · intro s hbefore hbegun
    obtain ⟨e, he, rfl⟩ := List.mem_map.mp hbefore
    obtain ⟨e', he', hsame⟩ := List.mem_map.mp hbegun
    refine not_issued_of_begun? (Option.mem_toList.mp he') ?_
    rw [hsame]
    exact h.issued e (List.mem_of_mem_filter he)

/-- Nobody subscribes to an observable while subscribed to it. -/
theorem once_enroll (h : Agrees c roster) :
    ((c.enroll roster call).map fun e => (e.holder, e.subscription.observable)).Nodup := by
  rw [h.enroll_eq, List.map_append]
  refine List.Nodup.append (h.once.sublist (List.filter_sublist.map _)) ?_ ?_
  · cases c.begun? call <;> simp
  · intro key hbefore hbegun
    obtain ⟨e, he, rfl⟩ := List.mem_map.mp hbefore
    obtain ⟨e', he', hsame⟩ := List.mem_map.mp hbegun
    obtain ⟨hholder, hid⟩ := Prod.mk.inj hsame
    have he := List.mem_of_mem_filter he
    have hbegun : c.begun? call = some e' := Option.mem_toList.mp he'
    cases hcase : e.holder with
    | handle n =>
      exact Nat.ne_of_lt (h.handed e he hcase) (held_of_begun? hbegun (hholder.trans hcase)).1
    | hook hook =>
      obtain ⟨-, -, k, hhook, hwatches⟩ := reads_of_begun? hbegun (hholder.trans hcase)
      exact Bool.eq_false_iff.mp hwatches ((h.watches_iff hhook _).mpr ⟨e, he, hcase, hid.symm⟩)

theorem issued_enroll (h : Agrees c roster) :
    ∀ e ∈ c.enroll roster call, (c.step call).registry.Issued e.subscription := by
  rw [h.enroll_eq]
  intro e he
  obtain hbefore | hbegun := List.mem_append.mp he
  · exact issued_step (h.issued e (List.mem_of_mem_filter hbefore))
  · exact issued_of_begun? (Option.mem_toList.mp hbegun)

theorem handed_enroll (h : Agrees c roster) :
    ∀ e ∈ c.enroll roster call, ∀ {n}, e.holder = .handle n → n < (c.step call).held.length := by
  rw [h.enroll_eq]
  intro e he n hholder
  obtain hbefore | hbegun := List.mem_append.mp he
  · exact Nat.lt_of_lt_of_le (h.handed e (List.mem_of_mem_filter hbefore) hholder) held_length_step
  · obtain ⟨rfl, hheld⟩ := held_of_begun? (Option.mem_toList.mp hbegun) hholder
    simp [hheld]

/-- Every call keeps the tables and the roster in agreement. -/
theorem step (h : Agrees c roster) (call : RegistryCall α L) :
    Agrees (c.step call) (c.enroll roster call) where
  listeners := h.listeners_enroll
  hooks := h.hooks_enroll
  handles := h.handles_enroll
  distinct := h.distinct_enroll
  once := h.once_enroll
  issued := h.issued_enroll
  handed := h.handed_enroll

theorem run (h : Agrees c roster) (calls : List (RegistryCall α L)) :
    Agrees (c.run calls) (c.enrollAll roster calls) := by
  induction calls generalizing c roster with
  | nil => exact h
  | cons call calls ih => exact ih (h.step call)

end Agrees

theorem agrees_empty : Agrees (empty : Custody α L) [] where
  listeners := by simp [empty, Registry.empty, observable?]
  hooks := by simp [empty, Registry.empty, hookSubscriptions, hook?]
  handles := by simp [empty, handle?]
  distinct := .nil
  once := .nil
  issued := by simp
  handed := by simp

/-- The tables and the roster agree after any calls. -/
theorem agrees_reached (calls : List (RegistryCall α L)) :
    Agrees (reached calls) (enrolled calls) :=
  agrees_empty.run calls

/-! ## Whom a hook calls -/

/-- A hook keeps its callback as long as it is not dropped. -/
theorem exists_hook?_step (call : RegistryCall α L) {hook : HookId} {k : Hook L}
    (hhook : c.registry.hook? hook = some k) (hended : c.ended? call ≠ some (.hook hook)) :
    ∃ k', (c.step call).registry.hook? hook = some k' ∧ k'.callback = k.callback := by
  have same (hhooks : (c.step call).registry.hooks = c.registry.hooks) :
      ∃ k', (c.step call).registry.hook? hook = some k' ∧ k'.callback = k.callback :=
    ⟨k, by rw [hook?, hhooks, ← hook?, hhook], rfl⟩
  cases call with
  | subscribe id listener =>
    cases ho : c.registry.observable? id <;> exact same (by simp [step, subscribe?, ho, put])
  | dispose n => cases hn : c.handle? n <;> exact same (by simp [step, hn])
  | createHook callback =>
    refine ⟨k, ?_, rfl⟩
    rw [step, hook?_createHook, if_neg (Nat.ne_of_lt (lt_of_hook? hhook)), hhook]
  | read id hook? =>
    cases hbegun : c.begun? (.read id hook?) with
    | none => exact ⟨k, by rw [step_read_of_begun? hbegun, hhook], rfl⟩
    | some e =>
      obtain ⟨reader, k', o, rfl, hreader, ho, hwatches, -⟩ := eq_read_of_begun? hbegun
      have hlt : reader < (c.registry.put id (o.subscribe k'.callback).1).hooks.length :=
        lt_of_hook? hreader
      rw [step, watch_eq hreader ho hwatches, hook?_putHook hlt]
      split
      next hid =>
        obtain rfl := Option.some.inj (hreader.symm.trans (hid ▸ hhook))
        exact ⟨_, rfl, rfl⟩
      next => exact ⟨k, hhook, rfl⟩
  | disposeHook gone =>
    have hne : gone ≠ hook := fun h => hended (h ▸ rfl)
    exact ⟨k, by rw [step, hook?_disposeHook, if_neg hne, hhook], rfl⟩
  | dropHook gone =>
    have hne : gone ≠ hook := fun h => hended (h ▸ rfl)
    exact ⟨k, by rw [step, hook?_dropHook, if_neg hne, hhook], rfl⟩
  | write id change =>
    cases ho : c.registry.observable? id <;> exact same (by simp [step, write?, ho, put])
  | create _ | drop _ | detach _ => exact same rfl

/-- Whoever the roster has for a hook is the callback of that hook. -/
def CallsBack (c : Custody α L) (roster : List (Enrolled L)) : Prop :=
  ∀ e ∈ roster, ∀ hook, e.holder = .hook hook →
    ∃ k, c.registry.hook? hook = some k ∧ k.callback = e.listener

theorem CallsBack.enroll (h : c.CallsBack roster) (hagrees : c.Agrees roster)
    (call : RegistryCall α L) : (c.step call).CallsBack (c.enroll roster call) := by
  intro e he hook hholder
  rw [hagrees.enroll_eq] at he
  obtain hbefore | hbegun := List.mem_append.mp he
  · obtain ⟨he, hkept⟩ := List.mem_filter.mp hbefore
    obtain ⟨k, hk, hcallback⟩ := h e he hook hholder
    obtain ⟨k', hk', hsame⟩ := exists_hook?_step call hk (by simpa [hholder] using hkept)
    exact ⟨k', hk', hsame.trans hcallback⟩
  · have hbegun : c.begun? call = some e := Option.mem_toList.mp hbegun
    obtain ⟨rfl, -⟩ := reads_of_begun? hbegun hholder
    obtain ⟨_, k, o, hreader, hk, -, -, hlistener⟩ := eq_read_of_begun? hbegun
    obtain rfl := Option.some.inj hreader
    obtain ⟨k', hk', hsame⟩ := exists_hook?_step (.read _ (some hook)) hk nofun
    exact ⟨k', hk', hsame.trans (congrArg (·.listener) hlistener).symm⟩

theorem CallsBack.run (h : c.CallsBack roster) (hagrees : c.Agrees roster)
    (calls : List (RegistryCall α L)) : (c.run calls).CallsBack (c.enrollAll roster calls) := by
  induction calls generalizing c roster with
  | nil => exact h
  | cons call calls ih => exact ih (h.enroll hagrees call) (hagrees.step call)

/-- After any calls, whoever is subscribed for a hook is its callback. -/
theorem callsBack_reached (calls : List (RegistryCall α L)) :
    (reached calls).CallsBack (enrolled calls) :=
  CallsBack.run (List.forall_mem_nil _) agrees_empty calls

/-! ## What a hook watches -/

/-- Whether a hook has a subscription to an observable. -/
def Watching (c : Custody α L) (hook : HookId) (id : ObservableId) : Prop :=
  ∃ s ∈ c.registry.hookSubscriptions hook, s.observable = id

/-- Whether a hook has read an observable and was not disposed of or dropped since. -/
def ReadSince (calls : List (RegistryCall α L)) (hook : HookId) (id : ObservableId) : Prop :=
  ∃ before after, calls = before ++ .read id (some hook) :: after ∧
    ((reached before).registry.hook? hook).isSome ∧
    ((reached before).registry.observable? id).isSome ∧
    .disposeHook hook ∉ after ∧ .dropHook hook ∉ after

theorem watching_iff {hook : HookId} {k : Hook L} (hhook : c.registry.hook? hook = some k)
    (id : ObservableId) : c.Watching hook id ↔ k.watches id = true := by
  simp [Watching, hookSubscriptions_of_hook? hhook, Hook.watches]

theorem watching_step {hook : HookId} {id : ObservableId} :
    (c.step call).Watching hook id ↔
      (c.Watching hook id ∧ call ≠ .disposeHook hook ∧ call ≠ .dropHook hook) ∨
      (call = .read id (some hook) ∧ (c.registry.hook? hook).isSome ∧
        (c.registry.observable? id).isSome) := by
  have hended := @ended?_eq_hook_iff _ _ c call hook
  constructor
  · rintro ⟨s, hs, rfl⟩
    rw [hookSubscriptions_step] at hs
    obtain hbefore | hbegun := List.mem_append.mp hs
    · left
      split at hbefore
      next => simp at hbefore
      next hkept => exact ⟨⟨s, hbefore, rfl⟩, not_or.mp (hkept ∘ hended.mpr)⟩
    · right
      obtain ⟨e, he, rfl⟩ := List.mem_map.mp hbegun
      obtain ⟨hbegun, hholder⟩ : c.begun? call = some e ∧ e.holder = .hook hook := by simpa using he
      obtain ⟨hread, ho, k, hhook, -⟩ := reads_of_begun? hbegun hholder
      exact ⟨hread, Option.isSome_of_eq_some hhook, ho⟩
  · rintro (⟨⟨s, hs, rfl⟩, hdispose, hdrop⟩ | ⟨rfl, hhook, ho⟩)
    · refine ⟨s, ?_, rfl⟩
      rw [hookSubscriptions_step, if_neg (fun h => (hended.mp h).elim hdispose hdrop)]
      exact List.mem_append_left _ hs
    · obtain ⟨k, hhook⟩ := Option.isSome_iff_exists.mp hhook
      obtain ⟨o, ho⟩ := Option.isSome_iff_exists.mp ho
      cases hwatches : k.watches id with
      | true =>
        obtain ⟨s, hs, hid⟩ := (watching_iff hhook id).mpr hwatches
        exact ⟨s, by simp [hookSubscriptions_step, ended?, hs], hid⟩
      | false =>
        refine ⟨⟨id, o.issued + 1⟩, ?_, rfl⟩
        simp [hookSubscriptions_step, begun?, hhook, ho, hwatches]

theorem readSince_concat {calls : List (RegistryCall α L)} {hook : HookId} {id : ObservableId} :
    ReadSince (calls ++ [call]) hook id ↔
      (ReadSince calls hook id ∧ call ≠ .disposeHook hook ∧ call ≠ .dropHook hook) ∨
      (call = .read id (some hook) ∧ ((reached calls).registry.hook? hook).isSome ∧
        ((reached calls).registry.observable? id).isSome) := by
  constructor
  · rintro ⟨before, after, hcalls, hhook, ho, hdispose, hdrop⟩
    obtain rfl | ⟨after, last, rfl⟩ := List.eq_nil_or_concat after
    · obtain ⟨rfl, hlast⟩ := List.append_inj' hcalls rfl
      exact .inr ⟨List.singleton_inj.mp hlast, hhook, ho⟩
    · rw [List.concat_eq_append, ← List.cons_append, ← List.append_assoc] at hcalls
      obtain ⟨rfl, hlast⟩ := List.append_inj' hcalls rfl
      obtain rfl := List.singleton_inj.mp hlast
      simp only [List.concat_eq_append, List.mem_append, List.mem_singleton, not_or]
        at hdispose hdrop
      exact .inl ⟨⟨before, after, rfl, hhook, ho, hdispose.1, hdrop.1⟩,
        Ne.symm hdispose.2, Ne.symm hdrop.2⟩
  · rintro (⟨hsince, hdispose', hdrop'⟩ | ⟨rfl, hhook, ho⟩)
    · obtain ⟨before, after, rfl, hhook, ho, hdispose, hdrop⟩ := hsince
      refine ⟨before, after ++ [call], by simp, hhook, ho, ?_, ?_⟩
      · simp [hdispose, hdispose'.symm]
      · simp [hdrop, hdrop'.symm]
    · exact ⟨calls, [], rfl, hhook, ho, by simp, by simp⟩

/-- A hook watches what it has read since it was last disposed of. -/
theorem watching_reached_iff (calls : List (RegistryCall α L)) (hook : HookId)
    (id : ObservableId) : (reached calls).Watching hook id ↔ ReadSince calls hook id := by
  induction calls using List.reverseRecOn with
  | nil => simp [Watching, ReadSince, reached, run, empty, Registry.empty, hookSubscriptions, hook?]
  | append_singleton calls call ih => rw [reached_concat, watching_step, readSince_concat, ih]

/-! ## Whom a write calls -/

/-- Whatever calls were made, the tables say who is subscribed and nothing else:

* an observable counts, and a write to it calls, exactly those whom the roster lists for it, each
  once and in the order of subscribing, when it already has its new value;
* a hook counts exactly the subscriptions that the roster lists for it, and watches what it has
  read since it was last disposed of;
* nobody is listed for an observable twice. -/
theorem bookkeeping_exact (calls : List (RegistryCall α L)) :
    let registry := (reached calls).registry
    (∀ id o, registry.observable? id = some o →
      let subscribed := (enrolled calls).filter (·.subscription.observable = id)
      o.listenerCount = subscribed.length ∧
      ∀ change : Change α, ∃ w, registry.write? id change.apply = some w ∧
        w.state.observable? id = some { o with value := change.value o.value } ∧
        w.called = if change.notifies o.value then subscribed.map (·.listener) else []) ∧
    (∀ hook k, registry.hook? hook = some k →
      k.subscriptionCount = ((enrolled calls).filter (·.holder = .hook hook)).length ∧
      ∀ id, k.watches id = true ↔ ReadSince calls hook id) ∧
    ((enrolled calls).map fun e => (e.holder, e.subscription.observable)).Nodup := by
  have hagrees := agrees_reached calls
  refine ⟨fun id o ho => ?_, fun hook k hhook => ?_, hagrees.once⟩
  · have hlisteners := hagrees.listeners ho
    refine ⟨by simp [Observable.listenerCount, hlisteners], fun change => ?_⟩
    refine ⟨_, congrArg (Option.map _) ho, ?_, ?_⟩
    · simp [observable?_put (lt_of_observable? ho)]
    · simp [Change.called_apply, hlisteners, Enrolled.listing, Function.comp_def]
  · refine ⟨?_, fun id => ?_⟩
    · have hsubscriptions := (hookSubscriptions_of_hook? hhook).symm.trans (hagrees.hooks hook)
      simp [Hook.subscriptionCount, hsubscriptions]
    · rw [← watching_iff hhook id, watching_reached_iff]

/-- A hook that was disposed of and reads again comes behind those who subscribed meanwhile. -/
theorem bookkeeping_exact_reread :
    let calls : List (RegistryCall Nat Nat) := [.create 0, .createHook 7, .read 0 (some 0),
      .subscribe 0 8, .read 0 (some 0), .disposeHook 0, .read 0 (some 0)]
    ∃ w, (reached calls).registry.write? 0 (Change.set 5).apply = some w ∧ w.called = [8, 7] := by
  intro calls
  have hlisted : (reached calls).registry.observable? 0 = some ⟨0, 3, [(2, 8), (3, 7)]⟩ := rfl
  obtain ⟨-, hwritten⟩ := (bookkeeping_exact calls).1 0 _ hlisted
  obtain ⟨w, hwrite, -, hcalled⟩ := hwritten (.set 5)
  exact ⟨w, hwrite, hcalled⟩

end Custody

end Palette
