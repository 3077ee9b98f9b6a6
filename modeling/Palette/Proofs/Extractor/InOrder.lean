import Palette.Proofs.Extractor.Ledger

/-!
# A generator that waits for its answers

A generator may make one offer after the other, each of them when the one before was answered.
Then no offer is superseded, since nobody else makes one while an item is held back, and the items
are delivered in the order in which they were offered.

Such a generator is out of step with its consumer by one item at most, until it is told to stop.
The item of that offer is never delivered. If it makes another offer all the same, which is the
last one because it is not answered, two items are left behind.

The offers left behind, `Outstanding`, depend on the state alone. A move keeps them in step with
the deliveries, and whether an offer may be made is the only thing asked of the generator.

Main statement: `Course.delivered_in_order`, with `Course.offered_after_stop` for the two items left behind.
-/

namespace Palette

variable {α L : Type _}

/-! ## What is left behind -/

/-- The offers behind those delivered, as the state tells them. -/
inductive Outstanding (answered : List (Nat × Bool)) :
    Extraction (Nat × α) Nat → List (Nat × α) → Prop where
  | nothing {s : Extraction (Nat × α) Nat} (h : s.held? = none) : Outstanding answered s []
  | held (item : Nat × α) (number : Nat) :
      Outstanding answered (.paused (some (item, number))) [item]
  | last (item : Nat × α) : Outstanding answered (.stopped true) [item]
  /-- An offer made after one that was told to stop, which is not answered. -/
  | ignored (item later : Nat × α) (htold : (item.1, true) ∈ answered)
      (hwaits : later.1 ∉ answered.map (·.1)) : Outstanding answered (.stopped true) [item, later]

/-- One offer at most is left behind, but for one that was told to stop. -/
theorem Outstanding.length_le {s : Extraction (Nat × α) Nat} {rest : List (Nat × α)}
    {answered : List (Nat × Bool)} (h : Outstanding answered s rest) :
    rest.length ≤ 1 ∨ ∃ told later, rest = [told, later] ∧ (told.1, true) ∈ answered ∧
      later.1 ∉ answered.map (·.1) := by
  cases h with
  | nothing => exact .inl (Nat.zero_le 1)
  | held | last => exact .inl (Nat.le_refl 1)
  | ignored told later htold hwaits => exact .inr ⟨told, later, rfl, htold, hwaits⟩

/-- The deliveries are the beginning of the offers, and no offer left behind may go on. -/
def InOrder (s : Extraction (Nat × α) Nat) (offers delivered : List (Nat × α))
    (answered : List (Nat × Bool)) : Prop :=
  ∃ rest, offers = delivered ++ rest ∧ Outstanding answered s rest ∧
    ∀ o ∈ rest, (o.1, false) ∉ answered

namespace InOrder

variable {s s' : Extraction (Nat × α) Nat} {offers delivered rest items : List (Nat × α)}
  {answered replies : List (Nat × Bool)} {call : ExtractorCall (Nat × α)}

theorem initial : InOrder (α := α) .notStarted [] [] [] := ⟨[], rfl, .nothing rfl, nofun⟩

/-- What a move leaves behind, of the offers left behind so far and the one that is made now. If
there are any, nobody is told to go on. -/
theorem exists_outstanding {ticket : Nat} (hrest : Outstanding answered s rest)
    (m : Move ticket s call s' items replies)
    (hoffer : ∀ o, call.item? = some o → s.held? = none ∧ o.1 ∉ answered.map (·.1) ∧
      ∀ e ∈ rest, (e.1, true) ∈ answered) :
    ∃ rest', rest ++ call.item?.toList = items ++ rest' ∧
      Outstanding (answered ++ replies) s' rest' ∧ (rest' = [] ∨ ∀ r ∈ replies, r.2 = true) := by
  cases hrest with
  | nothing h =>
    cases m with
    | begin | refused | again | late | pause | stop | stopAgain | finish =>
      exact ⟨[], rfl, .nothing rfl, .inl rfl⟩
    | unpaused => exact ⟨[], rfl, .nothing h, .inl rfl⟩
    | resume held =>
      cases h
      exact ⟨[], rfl, .nothing rfl, .inl rfl⟩
    | pass _ item => exact ⟨[], rfl, .nothing h, .inl rfl⟩
    | hold held item =>
      cases h
      exact ⟨[item], rfl, .held item ticket, .inr nofun⟩
    | tell item => exact ⟨[item], rfl, .last item, .inr fun r hr => List.mem_singleton.mp hr ▸ rfl⟩
    | ignore item => exact ⟨[item], rfl, .last item, .inr nofun⟩
  | held item number =>
    cases m with
    | resume => exact ⟨[], rfl, .nothing rfl, .inl rfl⟩
    | unpaused => exact ⟨[item], rfl, .held item number, .inr nofun⟩
    | stop | finish => exact ⟨[item], rfl, .last item, .inr fun r hr => (mem_answerTo.mp hr).2⟩
    | hold _ later => cases (hoffer later rfl).1
    | pass h => cases h
  | last item =>
    obtain ⟨rfl, rfl, rfl⟩ := m.of_informed
    rw [List.append_nil]
    cases hcall : call.item? with
    | none => exact ⟨[item], rfl, .last item, .inr nofun⟩
    | some later =>
      obtain ⟨-, hnew, htold⟩ := hoffer later hcall
      exact ⟨[item, later], rfl, .ignored item later (htold item List.mem_cons_self) hnew, .inr nofun⟩
  | ignored item later htold hwaits =>
    obtain ⟨rfl, rfl, rfl⟩ := m.of_informed
    rw [List.append_nil]
    cases hcall : call.item? with
    | none => exact ⟨[item, later], rfl, .ignored item later htold hwaits, .inr nofun⟩
    | some o =>
      -- the one who made the later offer still waits
      have hanswered := (hoffer o hcall).2.2 later (List.mem_cons_of_mem _ List.mem_cons_self)
      exact absurd (List.mem_map_of_mem hanswered) hwaits

/-- **Every move keeps the order**, if offers are made only when all before them were answered. -/
theorem move (h : InOrder s offers delivered answered) (hledger : Ledger s offers delivered answered)
    (m : Move offers.length s call s' items replies)
    (hnew : ∀ o, call.item? = some o → o.1 = offers.length)
    (hsettled : ∀ o, call.item? = some o → ∀ e ∈ offers, e.1 ∈ answered.map (·.1)) :
    InOrder s' (offers ++ call.item?.toList) (delivered ++ items) (answered ++ replies) := by
  obtain ⟨rest, hoffers, hrest, hkept⟩ := h
  have hfresh (o : Nat × α) (ho : call.item? = some o) : o.1 ∉ answered.map (·.1) := by
    rw [hnew o ho]
    exact hledger.new_answered
  have hoffer (o : Nat × α) (ho : call.item? = some o) :
      s.held? = none ∧ o.1 ∉ answered.map (·.1) ∧ ∀ e ∈ rest, (e.1, true) ∈ answered := by
    refine ⟨Option.eq_none_iff_forall_not_mem.mpr fun held hheld => ?_, hfresh o ho, fun e he => ?_⟩
    · obtain ⟨hitem, hnumber, -, hwaits⟩ := hledger.held held.1 held.2 hheld
      exact hwaits (hnumber ▸ hsettled o ho held.1 hitem)
    · have hmem : e ∈ offers := hoffers ▸ List.mem_append_right delivered he
      obtain ⟨⟨number, stop⟩, ha, hnumber⟩ := List.mem_map.mp (hsettled o ho e hmem)
      cases hnumber
      cases stop with
      | false => exact absurd ha (hkept e he)
      | true => exact ha
  obtain ⟨rest', hsplit, hrest', hreplies⟩ := exists_outstanding hrest m hoffer
  refine ⟨rest', by rw [hoffers, List.append_assoc, hsplit, List.append_assoc], hrest', ?_⟩
  intro o ho hlet
  rcases List.mem_append.mp hlet with hbefore | hnow
  · have hmem : o ∈ rest ++ call.item?.toList := hsplit ▸ List.mem_append_right items ho
    rcases List.mem_append.mp hmem with hmem | hmem
    · exact hkept o hmem hbefore
    · exact hfresh o (Option.mem_toList.mp hmem) (List.mem_map_of_mem hbefore)
  · rcases hreplies with rfl | hreplies
    · cases ho
    · cases hreplies _ hnow

end InOrder

namespace Course

variable {phase : Observable Phase L} {calls : List (ExtractorCall α)}

/-! ## One offer at a time -/

/-- Everyone who made an offer was answered. -/
def Settled (c : Course α L) : Prop := ∀ o ∈ c.offers, o.1 ∈ c.answered.map (·.1)

instance (c : Course α L) : Decidable c.Settled :=
  inferInstanceAs (Decidable (∀ o ∈ c.offers, o.1 ∈ c.answered.map (·.1)))

/-- Every offer is made after the answers to all before it. -/
def Sequential (phase : Observable Phase L) (calls : List (ExtractorCall α)) : Prop :=
  ∀ before item rest, calls = before ++ .offer item :: rest → (run phase before).Settled

/-- Looking at every offer tells whether they were made one at a time. -/
instance (phase : Observable Phase L) (calls : List (ExtractorCall α)) :
    Decidable (Sequential phase calls) :=
  decidable_of_iff (∀ n (_ : n < calls.length), calls[n].item?.isSome = true →
      (run phase (calls.take n)).Settled) <| by
    constructor
    · rintro h before item rest rfl
      simpa [ExtractorCall.item?] using h before.length (by simp)
    · intro h n hn hoffer
      cases hcall : calls[n] with
      | offer item =>
        refine h (calls.take n) item (calls.drop (n + 1)) ?_
        rw [← hcall, List.getElem_cons_drop, List.take_append_drop]
      | start | pause | stop | generatorEnds =>
        rw [hcall] at hoffer
        cases hoffer

theorem sequential_concat {call : ExtractorCall α} :
    Sequential phase (calls ++ [call]) ↔
      Sequential phase calls ∧ (call.item?.isSome = true → (run phase calls).Settled) := by
  constructor
  · intro h
    refine ⟨fun before item rest hcalls => h before item (rest ++ [call]) (by simp [hcalls]), ?_⟩
    cases call with
    | offer item => exact fun _ => h calls item [] rfl
    | _ => nofun
  · rintro ⟨h, hlast⟩ before item rest hcalls
    rcases concat_eq_append_cons hcalls with ⟨rfl, rfl⟩ | ⟨between, hcalls⟩
    · exact hlast rfl
    · exact h before item between hcalls

/-- The order is kept by all calls. -/
theorem inOrder_run (h : Sequential phase calls) :
    InOrder (run phase calls).state (run phase calls).offers (run phase calls).delivered
      (run phase calls).answered := by
  refine run_induction (P := fun calls c => Sequential phase calls →
    InOrder c.state c.offers c.delivered c.answered) (fun _ => .initial)
    (fun calls call ih hnext => ?_) calls h
  obtain ⟨hcalls, hlast⟩ := sequential_concat.mp hnext
  obtain ⟨items, replies, hmove, hdelivered, hanswered⟩ := (run phase calls).exists_move call
  rw [hdelivered, hanswered]
  refine (ih hcalls).move (ledger phase calls) hmove numbered_item?_fst fun o ho => ?_
  refine hlast ?_
  rw [numbered, ExtractorCall.item?_map] at ho
  rw [← Option.isSome_map, ho]
  rfl

/-- **The items of a generator that waits for its answers arrive in order.** The items delivered
are the first ones offered. All but the last one offered are delivered, or all but the last two if
the first of these was told to stop, and then the other is not answered. An offer that may go on is
delivered, and after a stop nothing is. -/
theorem delivered_in_order (phase : Observable Phase L) (calls : List (ExtractorCall α))
    (h : Sequential phase calls) :
    (∃ rest, (run phase calls).offers = (run phase calls).delivered ++ rest ∧
        (rest.length ≤ 1 ∨ ∃ told later, rest = [told, later] ∧
          (told.1, true) ∈ (run phase calls).answered ∧
          later.1 ∉ (run phase calls).answered.map (·.1))) ∧
      (∀ number, (number, false) ∈ (run phase calls).answered →
        number ∈ (run phase calls).delivered.map (·.1)) ∧
      ∀ before more, calls = before ++ .stop :: more →
        (run phase calls).delivered = (run phase before).delivered := by
  obtain ⟨rest, hoffers, hrest, hkept⟩ := inOrder_run h
  refine ⟨⟨rest, hoffers, hrest.length_le⟩, fun number hgo => ?_, fun before more hcalls => ?_⟩
  · obtain ⟨o, ho, rfl⟩ := (ledger phase calls).exists_offer hgo
    rw [hoffers] at ho
    rcases List.mem_append.mp ho with hdone | hleft
    · exact List.mem_map_of_mem hdone
    · exact absurd hgo (hkept o hleft)
  · rw [hcalls, delivered_stop]

/-- An item is held back and goes out when the extraction is resumed; the one offered after the stop
is left behind. -/
theorem delivered_in_order_resumed :
    let calls : List (ExtractorCall Char) :=
      [.start true, .offer 'a', .pause, .offer 'b', .start true, .stop, .offer 'c']
    let phase : Observable Phase Unit := .of .notStarted
    Sequential phase calls ∧ (run phase calls).delivered = [(0, 'a'), (1, 'b')] ∧
      (∃ rest, (run phase calls).offers = (run phase calls).delivered ++ rest ∧
        (rest.length ≤ 1 ∨ ∃ told later, rest = [told, later] ∧
          (told.1, true) ∈ (run phase calls).answered ∧
          later.1 ∉ (run phase calls).answered.map (·.1))) ∧
      (1, false) ∈ (run phase calls).answered ∧ 1 ∈ (run phase calls).delivered.map (·.1) :=
  ⟨by decide, rfl, (delivered_in_order _ _ (by decide)).1, by decide,
    (delivered_in_order _ _ (by decide)).2.1 1 (by decide)⟩

/-- Two items are left behind when an offer is made after one that was told to stop. -/
theorem offered_after_stop :
    ¬ ∀ (phase : Observable Phase Unit) (calls : List (ExtractorCall Char)),
      Sequential phase calls → ∃ rest, (run phase calls).offers =
        (run phase calls).delivered ++ rest ∧ rest.length ≤ 1 := by
  intro h
  obtain ⟨rest, hoffers, hrest⟩ :=
    h (.of .notStarted) [.start true, .stop, .offer 'a', .offer 'b'] (by decide)
  have htwo : rest = [(0, 'a'), (1, 'b')] := hoffers.symm
  rw [htwo] at hrest
  exact absurd hrest (by decide)

end Course

end Palette
