import Mathlib.Data.List.Nodup
import Palette.Proofs.Extractor.Course

/-!
# Who was delivered, and who was answered

The ledger of a course says of every offer what became of it: its item is delivered at most once,
it is answered at most once, and while its item is held back it is neither. At most one offer is
told to stop. Every move keeps the ledger, so it holds after all calls, whatever their order.

An offer that was told to go on was delivered, unless it was superseded: a later offer was made
while its item was held back. Then the item is lost.

Main statements: `Course.answered_false`, with `Course.lost_offer` for the loss, and `Course.safe`.
-/

namespace Palette

variable {α L : Type _}

/-! ## The ledger -/

/-- What the deliveries and answers so far have to do with the offers and with the state. -/
structure Ledger (s : Extraction (Nat × α) Nat) (offers delivered : List (Nat × α))
    (answered : List (Nat × Bool)) : Prop where
  numbered : offers.map (·.1) = List.range offers.length
  offered : ∀ d ∈ delivered, d ∈ offers
  asked : ∀ a ∈ answered, a.1 < offers.length
  deliveredOnce : (delivered.map (·.1)).Nodup
  answeredOnce : (answered.map (·.1)).Nodup
  /-- The item held back goes by the number of its offer, and nothing became of it yet. -/
  held : ∀ item number, s.held? = some (item, number) →
    item ∈ offers ∧ item.1 = number ∧ number ∉ delivered.map (·.1) ∧ number ∉ answered.map (·.1)
  told : answered.countP (·.2) ≤ s.isInformed.toNat

namespace Ledger

variable {s s' : Extraction (Nat × α) Nat} {offers delivered items : List (Nat × α)}
  {answered replies : List (Nat × Bool)}

theorem initial : Ledger (α := α) .notStarted [] [] [] where
  numbered := rfl
  offered := nofun
  asked := nofun
  deliveredOnce := List.nodup_nil
  answeredOnce := List.nodup_nil
  held := nofun
  told := Nat.le_refl _

/-- Offers have their place as their number. -/
theorem getElem?_of_mem (h : Ledger s offers delivered answered) {o : Nat × α} (ho : o ∈ offers) :
    offers[o.1]? = some o := by
  obtain ⟨i, hi⟩ := List.mem_iff_getElem?.mp ho
  have hnumber : (offers.map (·.1))[i]? = some o.1 := by rw [List.getElem?_map, hi]; rfl
  rw [h.numbered, List.getElem?_range (List.getElem?_eq_some_iff.mp hi).1] at hnumber
  rwa [← Option.some.inj hnumber]

theorem lt_of_mem (h : Ledger s offers delivered answered) {o : Nat × α} (ho : o ∈ offers) :
    o.1 < offers.length :=
  (List.getElem?_eq_some_iff.mp (h.getElem?_of_mem ho)).1

/-- Who was answered has made an offer. -/
theorem exists_offer (h : Ledger s offers delivered answered) {a : Nat × Bool} (ha : a ∈ answered) :
    ∃ o ∈ offers, o.1 = a.1 := by
  refine List.mem_map.mp ?_
  rw [h.numbered]
  exact List.mem_range.mpr (h.asked a ha)

/-- The next offer was not delivered yet. -/
theorem new_delivered (h : Ledger s offers delivered answered) :
    offers.length ∉ delivered.map (·.1) := by
  intro hmem
  obtain ⟨d, hd, hnumber⟩ := List.mem_map.mp hmem
  exact absurd hnumber (Nat.ne_of_lt (h.lt_of_mem (h.offered d hd)))

/-- The next offer was not answered yet. -/
theorem new_answered (h : Ledger s offers delivered answered) :
    offers.length ∉ answered.map (·.1) := by
  intro hmem
  obtain ⟨a, ha, hnumber⟩ := List.mem_map.mp hmem
  exact absurd hnumber (Nat.ne_of_lt (h.asked a ha))

/-! ### A move keeps it -/

section

variable {call : ExtractorCall (Nat × α)} (h : Ledger s offers delivered answered)
  (m : Move offers.length s call s' items replies)
  (hnew : ∀ o, call.item? = some o → o.1 = offers.length)
include h m

/-- Only what was offered is delivered. -/
theorem offered_move : ∀ d ∈ delivered ++ items, d ∈ offers ++ call.item?.toList := by
  intro d hd
  rcases List.mem_append.mp hd with hd | hd
  · exact List.mem_append_left _ (h.offered d hd)
  rcases m.delivers with rfl | ⟨d', rfl, ⟨number, hheld⟩ | hoffer⟩
  · cases hd
  · rw [List.mem_singleton.mp hd]
    exact List.mem_append_left _ (h.held d' number hheld).1
  · rw [List.mem_singleton.mp hd, hoffer]
    exact List.mem_append_right _ (List.mem_singleton_self d')

/-- Only those who made an offer are answered. -/
theorem asked_move : ∀ a ∈ answered ++ replies, a.1 < (offers ++ call.item?.toList).length := by
  intro a ha
  rw [List.length_append]
  rcases List.mem_append.mp ha with ha | ha
  · exact Nat.lt_add_right _ (h.asked a ha)
  rcases m.replies_to with rfl | ⟨r, rfl, ⟨item, hheld⟩ | ⟨hticket, hoffer⟩⟩
  · cases ha
  · obtain ⟨hitem, hnumber, -⟩ := h.held item r.1 hheld
    rw [List.mem_singleton.mp ha]
    exact Nat.lt_add_right _ (hnumber ▸ h.lt_of_mem hitem)
  · obtain ⟨item, hitem⟩ := Option.isSome_iff_exists.mp hoffer
    rw [List.mem_singleton.mp ha, hticket, hitem]
    exact Nat.lt_succ_self _

/-- Who is answered was not answered before. -/
theorem answeredOnce_move : ((answered ++ replies).map (·.1)).Nodup := by
  have hconcat {r : Nat × Bool} (hr : r.1 ∉ answered.map (·.1)) :
      ((answered ++ [r]).map (·.1)).Nodup := by
    rw [List.map_append, List.map_singleton, ← List.concat_eq_append]
    exact List.Nodup.concat hr h.answeredOnce
  rcases m.replies_to with rfl | ⟨r, rfl, ⟨item, hheld⟩ | ⟨hticket, -⟩⟩
  · rw [List.append_nil]
    exact h.answeredOnce
  · exact hconcat (h.held item r.1 hheld).2.2.2
  · exact hconcat (hticket ▸ h.new_answered)

include hnew

/-- What is delivered was not delivered before, nor was its offer answered. -/
theorem fresh_of_mem {d : Nat × α} (hd : d ∈ items) :
    d.1 ∉ delivered.map (·.1) ∧ d.1 ∉ answered.map (·.1) := by
  rcases m.delivers with rfl | ⟨d', rfl, ⟨number, hheld⟩ | hoffer⟩
  · cases hd
  · rw [List.mem_singleton.mp hd]
    obtain ⟨-, rfl, hfresh⟩ := h.held d' number hheld
    exact hfresh
  · rw [List.mem_singleton.mp hd, hnew d' hoffer]
    exact ⟨h.new_delivered, h.new_answered⟩

/-- Who was answered before is not delivered any more. -/
theorem notMem_items {number : Nat} (hanswered : number ∈ answered.map (·.1)) :
    number ∉ items.map (·.1) := by
  intro hmem
  obtain ⟨d, hd, rfl⟩ := List.mem_map.mp hmem
  exact (h.fresh_of_mem m hnew hd).2 hanswered

theorem deliveredOnce_move : ((delivered ++ items).map (·.1)).Nodup := by
  rcases m.delivers with rfl | ⟨d, rfl, -⟩
  · rw [List.append_nil]
    exact h.deliveredOnce
  · rw [List.map_append, List.map_singleton, ← List.concat_eq_append]
    exact List.Nodup.concat (h.fresh_of_mem m hnew (List.mem_singleton_self d)).1 h.deliveredOnce

/-- What is held is what was held before, or the last offer. -/
theorem held_move {item : Nat × α} {number : Nat} (hs : s'.held? = some (item, number)) :
    item ∈ offers ++ call.item?.toList ∧ item.1 = number ∧
      number ∉ (delivered ++ items).map (·.1) ∧ number ∉ (answered ++ replies).map (·.1) := by
  obtain ⟨rfl, ⟨hheld, rfl, hnone⟩ | ⟨hoffer, rfl, hreplies⟩⟩ := m.holds hs
  · rw [hnone]
    simpa using h.held item number hheld
  · refine ⟨by simp [hoffer], hnew item hoffer, by simpa using h.new_delivered, ?_⟩
    rw [List.map_append]
    refine fun hmem => (List.mem_append.mp hmem).elim h.new_answered fun hmem => ?_
    -- only the one who waited so far is answered now, and that is an earlier offer
    obtain ⟨r, hr, hnumber⟩ := List.mem_map.mp hmem
    obtain ⟨earlier, hearlier⟩ := hreplies r hr
    obtain ⟨hitem, hwaited, -⟩ := h.held earlier r.1 hearlier
    exact absurd (hwaited.trans hnumber) (Nat.ne_of_lt (h.lt_of_mem hitem))

/-- **Every move keeps the ledger.** -/
theorem move :
    Ledger s' (offers ++ call.item?.toList) (delivered ++ items) (answered ++ replies) where
  numbered := by
    cases hitem : call.item? with
    | none => simpa using h.numbered
    | some o => simp [h.numbered, hnew o hitem, List.range_succ]
  offered := h.offered_move m
  asked := h.asked_move m
  deliveredOnce := h.deliveredOnce_move m hnew
  answeredOnce := h.answeredOnce_move m
  held _ _ hs := h.held_move m hnew hs
  told := by
    have hbefore := h.told
    have hnow := m.told_le
    rw [List.countP_append]
    omega

end

end Ledger

namespace Course

variable {phase : Observable Phase L}

theorem numbered_item?_fst {c : Course α L} {call : ExtractorCall α} :
    ∀ o, (c.numbered call).item? = some o → o.1 = c.offers.length := by
  rintro o ho
  cases call <;> cases ho
  rfl

/-- **The ledger holds of every course.** -/
theorem ledger (phase : Observable Phase L) (calls : List (ExtractorCall α)) :
    Ledger (run phase calls).state (run phase calls).offers (run phase calls).delivered
      (run phase calls).answered := by
  refine run_induction (P := fun _ c => Ledger c.state c.offers c.delivered c.answered)
    Ledger.initial (fun calls call h => ?_) calls
  obtain ⟨items, replies, hmove, hdelivered, hanswered⟩ := (run phase calls).exists_move call
  rw [hdelivered, hanswered]
  exact h.move hmove numbered_item?_fst

/-! ## Offers told to go on -/

/-- Another item was offered while that of the offer was held back. -/
def Superseded (phase : Observable Phase L) (calls : List (ExtractorCall α)) (number : Nat) :
    Prop :=
  ∃ before later rest item, calls = before ++ .offer later :: rest ∧
    (run phase before).state = .paused (some (item, number))

theorem superseded_concat {calls : List (ExtractorCall α)} {call : ExtractorCall α} {number : Nat} :
    Superseded phase (calls ++ [call]) number ↔ Superseded phase calls number ∨
      ∃ later item, call = .offer later ∧
        (run phase calls).state = .paused (some (item, number)) := by
  constructor
  · rintro ⟨before, later, rest, item, hcalls, hheld⟩
    rcases concat_eq_append_cons hcalls with ⟨rfl, hcall⟩ | ⟨between, hcalls⟩
    · exact .inr ⟨later, item, hcall, hheld⟩
    · exact .inl ⟨before, later, between, item, hcalls, hheld⟩
  · rintro (⟨before, later, rest, item, rfl, hheld⟩ | ⟨later, item, rfl, hheld⟩)
    · exact ⟨before, later, rest ++ [call], item, by simp, hheld⟩
    · exact ⟨calls, later, [], item, rfl, hheld⟩

/-- Who is superseded is told to go on. -/
theorem answered_of_superseded (calls : List (ExtractorCall α)) (number : Nat) :
    Superseded phase calls number → (number, false) ∈ (run phase calls).answered := by
  refine run_induction (P := fun calls c => Superseded phase calls number →
    (number, false) ∈ c.answered) ?_ (fun calls call ih hnext => ?_) calls
  · rintro ⟨before, later, rest, item, hcalls, -⟩
    exact absurd hcalls.symm (List.append_ne_nil_of_right_ne_nil before (List.cons_ne_nil _ rest))
  obtain ⟨items, replies, hmove, -, hanswered⟩ := (run phase calls).exists_move call
  rw [hanswered]
  rcases superseded_concat.mp hnext with hbefore | ⟨later, item, rfl, hheld⟩
  · exact List.mem_append_left _ (ih hbefore)
  · rw [hheld] at hmove
    exact List.mem_append_right _ hmove.supersedes.1

/-- Of those who were told to go on, the items of all but the superseded ones were delivered. -/
theorem mem_delivered_iff (calls : List (ExtractorCall α)) (number : Nat) :
    (number, false) ∈ (run phase calls).answered →
      (number ∈ (run phase calls).delivered.map (·.1) ↔ ¬ Superseded phase calls number) := by
  refine run_induction (P := fun calls c => (number, false) ∈ c.answered →
    (number ∈ c.delivered.map (·.1) ↔ ¬ Superseded phase calls number)) nofun
    (fun calls call ih hnext => ?_) calls
  have hledger := ledger phase calls
  obtain ⟨items, replies, hmove, hdelivered, hanswered⟩ := (run phase calls).exists_move call
  have hsettled {before : Nat × Bool} (h : before ∈ (run phase calls).answered) :
      before.1 ∉ items.map (·.1) :=
    hledger.notMem_items hmove numbered_item?_fst (List.mem_map_of_mem h)
  rw [hanswered] at hnext
  rw [hdelivered, List.map_append, List.mem_append, superseded_concat]
  rcases List.mem_append.mp hnext with hbefore | hnow
  · -- answered before: its item is not delivered any more, nor held back
    have hstate : ¬ ∃ later item, call = .offer later ∧
        (run phase calls).state = .paused (some (item, number)) := by
      rintro ⟨later, item, -, hheld⟩
      exact (hledger.held item number (by rw [hheld]; rfl)).2.2.2
        (List.mem_map.mpr ⟨_, hbefore, rfl⟩)
    simp only [hsettled hbefore, hstate, or_false, ih hbefore]
  rcases hmove.lets_go hnow with ⟨item, rfl, hitem⟩ | ⟨item, later, hheld, hoffer, rfl⟩
  · -- delivered now
    have hnumber : item.1 = number := by
      rcases hitem with hheld | ⟨rfl, hoffer⟩
      · exact (hledger.held item number hheld).2.1
      · exact numbered_item?_fst item hoffer
    have hitems : number ∈ [item].map (·.1) := List.mem_singleton.mpr hnumber.symm
    refine iff_of_true (.inr hitems) ?_
    rintro (hsuperseded | ⟨later, held, rfl, hheld⟩)
    · exact hsettled (answered_of_superseded calls number hsuperseded) hitems
    · rw [hheld] at hmove
      cases hmove.supersedes.2
  · -- superseded now
    refine iff_of_false ?_ (not_not.mpr (.inr ?_))
    · rintro (hdone | hdone)
      · exact (hledger.held item number (by rw [hheld]; rfl)).2.2.1 hdone
      · cases hdone
    · cases call with
      | offer later => exact ⟨later, item, rfl, hheld⟩
      | _ => cases hoffer

/-- **Only superseded items are lost.** If an offer is answered with `false`, its item has been
delivered exactly once, unless another one was offered while it was held back; then it is not
delivered at all. -/
theorem answered_false (phase : Observable Phase L) (calls : List (ExtractorCall α)) (number : Nat)
    (h : (number, false) ∈ (run phase calls).answered) :
    ∃ item, (calls.filterMap ExtractorCall.item?)[number]? = some item ∧
      (¬ Superseded phase calls number → (number, item) ∈ (run phase calls).delivered ∧
        ((run phase calls).delivered.map (·.1)).count number = 1) ∧
      (Superseded phase calls number →
        ((run phase calls).delivered.map (·.1)).count number = 0) := by
  have hledger := ledger phase calls
  have hmem : number ∈ (run phase calls).offers.map (·.1) := by
    rw [hledger.numbered]
    exact List.mem_range.mpr (hledger.asked _ h)
  obtain ⟨⟨number, item⟩, ho, rfl⟩ := List.mem_map.mp hmem
  have hplace := hledger.getElem?_of_mem ho
  refine ⟨item, ?_, fun hkept => ?_, fun hsuperseded => ?_⟩
  · rw [← offers_map_snd phase, List.getElem?_map, hplace]
    rfl
  · have hdone := (mem_delivered_iff calls number h).mpr hkept
    obtain ⟨⟨number, item'⟩, hd, rfl⟩ := List.mem_map.mp hdone
    cases (hledger.getElem?_of_mem (hledger.offered _ hd)).symm.trans hplace
    exact ⟨hd, List.count_eq_one_of_mem hledger.deliveredOnce hdone⟩
  · exact List.count_eq_zero.mpr fun hdone =>
      (mem_delivered_iff calls number h).mp hdone hsuperseded

/-- What is offered second goes out when the extraction is resumed. -/
theorem answered_false_resumed :
    let calls : List (ExtractorCall Char) :=
      [.start true, .pause, .offer 'a', .offer 'b', .start true]
    let phase : Observable Phase Unit := .of .notStarted
    (1, false) ∈ (run phase calls).answered ∧
      ∃ item, (calls.filterMap ExtractorCall.item?)[1]? = some item ∧
        (¬ Superseded phase calls 1 → (1, item) ∈ (run phase calls).delivered ∧
          ((run phase calls).delivered.map (·.1)).count 1 = 1) ∧
        (Superseded phase calls 1 → ((run phase calls).delivered.map (·.1)).count 1 = 0) :=
  ⟨by decide, answered_false _ _ 1 (by decide)⟩

/-- What is offered first is lost, though its offer was answered with `false`. -/
theorem lost_offer :
    ¬ ∀ (phase : Observable Phase Unit) (calls : List (ExtractorCall Char)) (number : Nat),
      (number, false) ∈ (run phase calls).answered →
        ((run phase calls).delivered.map (·.1)).count number = 1 := by
  intro h
  have honce := h (.of .notStarted) [.start true, .pause, .offer 'a', .offer 'b'] 0 (by decide)
  exact absurd honce (by decide)

/-! ## Safety -/

/-- **The safety of an extraction**, whatever calls are made in whatever order. What is stopped
stays stopped, does not start and delivers nothing; items are delivered only while the extraction
is neither paused nor stopped; no offer is delivered twice; at most one offer is told to stop. -/
theorem safe (phase : Observable Phase L) (calls : List (ExtractorCall α)) :
    (∀ informed, (run phase calls).state = .stopped informed → ∀ more,
      (∃ informed', (run phase (calls ++ more)).state = .stopped informed') ∧
        (∀ inRuntime,
          (run phase (calls ++ more)).extractor.start inRuntime = .error .finished) ∧
        (run phase (calls ++ more)).delivered = (run phase calls).delivered) ∧
      (∀ call, (run phase (calls ++ [call])).delivered ≠ (run phase calls).delivered →
        (run phase (calls ++ [call])).state.isOpen = true) ∧
      ((run phase calls).delivered.map (·.1)).Nodup ∧
      (run phase calls).answered.countP (·.2) ≤ 1 := by
  have hledger := ledger phase calls
  refine ⟨fun informed h more => ?_, fun _ => isOpen_of_delivered_ne, hledger.deliveredOnce,
    Nat.le_trans hledger.told (Bool.toNat_le _)⟩
  obtain ⟨⟨informed', hstopped⟩, hsame⟩ := stopped_append h more
  exact ⟨⟨informed', hstopped⟩, start_of_stopped hstopped, hsame⟩

/-- One offer is delivered and another one, held back, is told to stop. -/
theorem safe_stopped :
    let calls : List (ExtractorCall Char) := [.start true, .offer 'a', .pause, .offer 'b', .stop]
    let phase : Observable Phase Unit := .of .notStarted
    (∃ informed, (run phase calls).state = .stopped informed) ∧
      (run phase calls).answered = [(0, false), (1, true)] ∧
      (∀ more, ∃ informed, (run phase (calls ++ more)).state = .stopped informed) ∧
      ((run phase calls).delivered.map (·.1)).Nodup :=
  ⟨⟨true, rfl⟩, rfl, fun more => ((safe _ _).1 true rfl more).1, (safe _ _).2.2.1⟩

end Course

end Palette
