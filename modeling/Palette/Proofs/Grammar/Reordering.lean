import Mathlib.Logic.Equiv.Defs
import Palette.Proofs.Grammar.Listing

/-!
# Alternatives in another order

Two grammars reorder each other when they differ only in the order in which alternations list their
alternatives, and in the numbers that decisions have from the order in which they were recorded.

Nothing that the analysis asks for shows the order: what a sequence opens with, which rules are
nullable and which ones they lead to, and whether alternatives can be told apart. So a grammar that
passes the analysis passes it in every other order too, and the table of each decision has the same
paths for the same alternatives.

Main statements: `Grammar.Reorders.opens_iff` and `Grammar.Reorders.exists_lookahead`.
-/

namespace Palette

/-! ## Lists along an order -/

/-- Each list on the right is related, one by one, to the list on the left in the place that the
order gives. -/
def AlongOrder {α : Type} (R : α → α → Prop) {l l' : List (List α)}
    (order : Fin l'.length ≃ Fin l.length) : Prop :=
  ∀ j, List.Forall₂ R (l.get (order j)) (l'.get j)

namespace AlongOrder

variable {α : Type} {R S : α → α → Prop} {l l' : List (List α)}
  {order : Fin l'.length ≃ Fin l.length}

theorem imp (h : AlongOrder R order) (himp : ∀ a b, R a b → S a b) : AlongOrder S order :=
  fun j => (h j).imp himp

theorem symm (h : AlongOrder R order) : AlongOrder (fun a b => R b a) order.symm := by
  intro j
  have hback := (h (order.symm j)).flip
  rwa [Equiv.apply_symm_apply] at hback

/-- Every list on the left has its counterpart. -/
theorem exists_right (h : AlongOrder R order) {a : List α} (ha : a ∈ l) :
    ∃ b ∈ l', List.Forall₂ R a b := by
  obtain ⟨j, rfl⟩ := List.get_of_mem ha
  have hj := h (order.symm j)
  rw [Equiv.apply_symm_apply] at hj
  exact ⟨_, List.get_mem l' _, hj⟩

/-- Every list on the right has its counterpart. -/
theorem exists_left (h : AlongOrder R order) {b : List α} (hb : b ∈ l') :
    ∃ a ∈ l, List.Forall₂ R a b := by
  obtain ⟨j, rfl⟩ := List.get_of_mem hb
  exact ⟨_, List.get_mem l _, h j⟩

/-- A body that is kept in its place is related to the one in its place. -/
theorem bodyOf {R : Production → Production → Prop} {l l' : List (List Production)}
    {order : Fin l'.length ≃ Fin l.length} (h : AlongOrder R order)
    (hkept : ∀ j, (order j).val = j.val) : List.Forall₂ R (bodyOf l) (bodyOf l') := by
  cases l with
  | nil =>
    cases l' with
    | nil => exact .nil
    | cons => exact (order ⟨0, Nat.succ_pos _⟩).elim0
  | cons body rest =>
    cases l' with
    | nil => exact (order.symm ⟨0, Nat.succ_pos _⟩).elim0
    | cons body' rest' =>
      have hfirst : order ⟨0, Nat.succ_pos _⟩ = ⟨0, Nat.succ_pos _⟩ := Fin.ext (hkept _)
      have hbody := h ⟨0, Nat.succ_pos _⟩
      rwa [hfirst] at hbody

end AlongOrder

/-! ## Productions in another order -/

/-- The productions differ in the numbers of decisions and in the order of alternatives only. Each
alternative on the right is, but for such differences, the one on the left that `order` gives; the
body of a decision with a single one is kept in its place. -/
inductive Production.Reorders : Production → Production → Prop where
  | terminal {kind} : Reorders (.terminal kind) (.terminal kind)
  | nonterminal {r} : Reorders (.nonterminal r) (.nonterminal r)
  | decision {number number' key kind alternatives alternatives'}
      (order : Fin alternatives'.length ≃ Fin alternatives.length)
      (kept : kind ≠ .alternation → ∀ j, (order j).val = j.val)
      (length : ∀ j, (alternatives.get (order j)).length = (alternatives'.get j).length)
      (inside : ∀ j i hi hi', Reorders ((alternatives.get (order j)).get ⟨i, hi⟩)
        ((alternatives'.get j).get ⟨i, hi'⟩)) :
    Reorders (.decision number key kind alternatives) (.decision number' key kind alternatives')

/-- The sequences differ as their productions do, one by one. -/
def SequenceReorders : List Production → List Production → Prop :=
  List.Forall₂ Production.Reorders

/-- The decision on the right is the one on the left, with each alternative in the place that it has
by the order. -/
structure Decision.Reorders (d d' : Decision)
    (order : Fin d'.alternatives.length ≃ Fin d.alternatives.length) : Prop where
  key : d'.key = d.key
  kind : d'.kind = d.kind
  kept : d.kind ≠ .alternation → ∀ j, (order j).val = j.val
  inside : AlongOrder Production.Reorders order

/-- The grammars differ as the sequences of their rules and their decisions do; the decisions may be
listed in any order. -/
structure Grammar.Reorders (g g' : Grammar) : Prop where
  names : g'.names = g.names
  rules : List.Forall₂ SequenceReorders g.rules g'.rules
  decisions : ∃ ds, List.Forall₂ (fun d d' => ∃ order, d.Reorders d' order) g.decisions ds ∧
    ds.Perm g'.decisions

namespace Production.Reorders

variable {p p' : Production} {number number' : Nat} {key : DecisionKey} {kind : DecisionKind}
  {alternatives alternatives' : List (List Production)}

theorem of_inside {order : Fin alternatives'.length ≃ Fin alternatives.length}
    (kept : kind ≠ .alternation → ∀ j, (order j).val = j.val) (inside : AlongOrder Reorders order) :
    Reorders (.decision number key kind alternatives) (.decision number' key kind alternatives') :=
  .decision order kept (fun j => (inside j).length_eq)
    fun j => (List.forall₂_iff_get.mp (inside j)).2

/-- A decision is one in another order too, with the same key and of the same kind. -/
theorem exists_decision (h : Reorders (.decision number key kind alternatives) p') :
    ∃ number' alternatives', p' = .decision number' key kind alternatives' := by
  cases h with
  | decision => exact ⟨_, _, rfl⟩

/-- Alternatives are related along an order, which keeps a single body in its place. -/
theorem exists_order (h : Reorders (.decision number key kind alternatives)
      (.decision number' key kind alternatives')) :
    ∃ order : Fin alternatives'.length ≃ Fin alternatives.length,
      (kind ≠ .alternation → ∀ j, (order j).val = j.val) ∧ AlongOrder Reorders order := by
  cases h with
  | decision order kept length inside =>
    exact ⟨order, kept, fun j => List.forall₂_iff_get.mpr ⟨length j, inside j⟩⟩

/-- Induction along the order: in front of a decision, the statement is known of all that is inside
of its alternatives. -/
theorem induct {motive : Production → Production → Prop}
    (terminal : ∀ kind, motive (.terminal kind) (.terminal kind))
    (nonterminal : ∀ r, motive (.nonterminal r) (.nonterminal r))
    (decision : ∀ (number number' : Nat) (key : DecisionKey) (kind : DecisionKind)
      (alternatives alternatives' : List (List Production))
      (order : Fin alternatives'.length ≃ Fin alternatives.length),
      (kind ≠ .alternation → ∀ j, (order j).val = j.val) → AlongOrder motive order →
      motive (.decision number key kind alternatives) (.decision number' key kind alternatives'))
    (h : p.Reorders p') : motive p p' := by
  induction h with
  | terminal => exact terminal _
  | nonterminal => exact nonterminal _
  | decision order kept length inside ih =>
    exact decision _ _ _ _ _ _ order kept fun j => List.forall₂_iff_get.mpr ⟨length j, ih j⟩

theorem symm (h : p.Reorders p') : p'.Reorders p := by
  refine induct (motive := fun p p' => p'.Reorders p) (fun _ => .terminal) (fun _ => .nonterminal)
    (fun _ _ _ _ _ _ order kept inside => .of_inside (fun hkind j => ?_) inside.symm) h
  rw [← kept hkind, Equiv.apply_symm_apply]

/-- Rounds behind the first one are those of a repetition with the other body. -/
theorem repeated (h : Reorders (.decision number key .atLeastOne alternatives)
      (.decision number' key .atLeastOne alternatives')) :
    Reorders (.decision number key .many alternatives)
      (.decision number' key .many alternatives') := by
  obtain ⟨order, hkept, hinside⟩ := h.exists_order
  exact .of_inside (fun _ => hkept nofun) hinside

theorem body (h : Reorders (.decision number key kind alternatives)
      (.decision number' key kind alternatives')) (hkind : kind ≠ .alternation) :
    SequenceReorders (bodyOf alternatives) (bodyOf alternatives') := by
  obtain ⟨order, hkept, hinside⟩ := h.exists_order
  exact hinside.bodyOf (hkept hkind)

end Production.Reorders

theorem SequenceReorders.symm {ps ps' : List Production} (h : SequenceReorders ps ps') :
    SequenceReorders ps' ps :=
  h.flip.imp fun _ _ => Production.Reorders.symm

theorem Decision.Reorders.production {d d' : Decision} {order} (h : d.Reorders d' order) :
    d.production.Reorders d'.production := by
  rw [Decision.production, Decision.production, h.key, h.kind]
  exact .of_inside h.kept h.inside

/-! ## What sequences open with -/

namespace Grammar

variable {g g' : Grammar} {b : Nat} {ps ps' : List Production} {w : Path}

/-- What a sequence opens with, it opens with in another order. -/
theorem Opens.reorder (hg : List.Forall₂ SequenceReorders g.rules g'.rules) (h : g.Opens b ps w)
    (hps : SequenceReorders ps ps') : g'.Opens b ps' w := by
  induction h generalizing ps' with
  | full => exact .full
  | nil =>
    cases hps
    exact .nil
  | terminal rest ih =>
    obtain _ | ⟨hp, hrest⟩ := hps
    cases hp
    exact .terminal (ih hrest)
  | nonterminal rule inner rest ihinner ih =>
    obtain _ | ⟨hp, hrest⟩ := hps
    cases hp
    obtain ⟨body', rule', hbody⟩ := exists_right_of_forall₂ hg rule
    exact .nonterminal rule' (ihinner hbody) (ih hrest)
  | optionNone rest ih =>
    obtain _ | ⟨hp, hrest⟩ := hps
    obtain ⟨_, _, rfl⟩ := hp.exists_decision
    exact .optionNone (ih hrest)
  | optionSome inner rest ihinner ih =>
    obtain _ | ⟨hp, hrest⟩ := hps
    obtain ⟨_, _, rfl⟩ := hp.exists_decision
    exact .optionSome (ihinner (hp.body nofun)) (ih hrest)
  | manyDone rest ih =>
    obtain _ | ⟨hp, hrest⟩ := hps
    obtain ⟨_, _, rfl⟩ := hp.exists_decision
    exact .manyDone (ih hrest)
  | manyMore inner rest ihinner ih =>
    obtain _ | ⟨hp, hrest⟩ := hps
    obtain ⟨_, _, rfl⟩ := hp.exists_decision
    exact .manyMore (ihinner (hp.body nofun)) (ih (.cons hp hrest))
  | atLeastOne inner rest ihinner ih =>
    obtain _ | ⟨hp, hrest⟩ := hps
    obtain ⟨_, _, rfl⟩ := hp.exists_decision
    exact .atLeastOne (ihinner (hp.body nofun)) (ih (.cons hp.repeated hrest))
  | alternation chosen inner rest ihinner ih =>
    obtain _ | ⟨hp, hrest⟩ := hps
    obtain ⟨_, _, rfl⟩ := hp.exists_decision
    obtain ⟨order, -, hinside⟩ := hp.exists_order
    obtain ⟨_, chosen', hsequence⟩ := hinside.exists_right chosen
    exact .alternation chosen' (ihinner hsequence) (ih hrest)

/-- **The order of alternatives does not show in what sequences open with.** -/
theorem Reorders.opens_iff (hg : g.Reorders g') (hps : SequenceReorders ps ps') :
    g'.Opens b ps' w ↔ g.Opens b ps w :=
  ⟨fun h => h.reorder (hg.rules.flip.imp fun _ _ => SequenceReorders.symm) hps.symm,
    fun h => h.reorder hg.rules hps⟩

end Grammar

/-! ## Left recursion -/

theorem sequenceNullable_congr {marked : RuleId → Bool} {ps ps' : List Production}
    (h : List.Forall₂ (fun p p' => p'.isNullable marked = p.isNullable marked) ps ps') :
    sequenceNullable marked ps' = sequenceNullable marked ps := by
  induction h with
  | nil => rfl
  | cons hp _ ih => rw [sequenceNullable, sequenceNullable, hp, ih]

theorem Production.Reorders.isNullable_eq {p p' : Production} (h : p.Reorders p')
    (marked : RuleId → Bool) : p'.isNullable marked = p.isNullable marked := by
  refine h.induct (motive := fun p p' => p'.isNullable marked = p.isNullable marked)
    (fun _ => rfl) (fun _ => rfl) ?_
  intro number number' key kind alternatives alternatives' order kept inside
  cases kind with
  | option => rw [isNullable, isNullable]
  | many => rw [isNullable, isNullable]
  | atLeastOne =>
    rw [isNullable, isNullable, bodyNullable_eq, bodyNullable_eq]
    exact sequenceNullable_congr (inside.bodyOf (kept (by decide)))
  | alternation =>
    rw [isNullable, isNullable, someNullable_eq, someNullable_eq, Bool.eq_iff_iff,
      List.any_eq_true, List.any_eq_true]
    constructor
    · rintro ⟨sequence', hmem, hnull⟩
      obtain ⟨sequence, hmem', hsame⟩ := inside.exists_left hmem
      exact ⟨sequence, hmem', sequenceNullable_congr hsame ▸ hnull⟩
    · rintro ⟨sequence, hmem, hnull⟩
      obtain ⟨sequence', hmem', hsame⟩ := inside.exists_right hmem
      exact ⟨sequence', hmem', (sequenceNullable_congr hsame).trans hnull⟩

/-- The productions are nullable alike and lead to the same rules. -/
def LeadsAlike (nullable : RuleId → Bool) (p p' : Production) : Prop :=
  p'.isNullable nullable = p.isNullable nullable ∧
    ∀ r, r ∈ p'.leading nullable ↔ r ∈ p.leading nullable

theorem mem_sequenceLeading_congr {nullable : RuleId → Bool} {ps ps' : List Production}
    (h : List.Forall₂ (LeadsAlike nullable) ps ps') (r : RuleId) :
    r ∈ sequenceLeading nullable ps' ↔ r ∈ sequenceLeading nullable ps := by
  induction h with
  | nil => rfl
  | cons hp _ ih =>
    rw [sequenceLeading, sequenceLeading, hp.1, List.mem_append, List.mem_append, hp.2]
    split
    · rw [ih]
    · rfl

theorem Production.Reorders.leadsAlike {p p' : Production} (h : p.Reorders p')
    (nullable : RuleId → Bool) : LeadsAlike nullable p p' := by
  -- A decision is nullable as it is in the other order; that all inside of it are is not enough.
  refine (h.induct (motive := fun p p' => p.Reorders p' ∧ LeadsAlike nullable p p')
    (fun _ => ⟨.terminal, rfl, fun _ => Iff.rfl⟩) (fun _ => ⟨.nonterminal, rfl, fun _ => Iff.rfl⟩)
    ?_).2
  intro number number' key kind alternatives alternatives' order kept inside
  have hsame : Production.Reorders (.decision number key kind alternatives)
      (.decision number' key kind alternatives') :=
    .of_inside kept (inside.imp fun _ _ => And.left)
  refine ⟨hsame, hsame.isNullable_eq nullable, fun r => ?_⟩
  have halike : AlongOrder (LeadsAlike nullable) order := inside.imp fun _ _ => And.right
  simp only [leading, alternativesLeading_eq, List.mem_flatMap]
  constructor
  · rintro ⟨sequence', hmem, hleads⟩
    obtain ⟨sequence, hmem', hsequence⟩ := halike.exists_left hmem
    exact ⟨sequence, hmem', (mem_sequenceLeading_congr hsequence r).mp hleads⟩
  · rintro ⟨sequence, hmem, hleads⟩
    obtain ⟨sequence', hmem', hsequence⟩ := halike.exists_right hmem
    exact ⟨sequence', hmem', (mem_sequenceLeading_congr hsequence r).mpr hleads⟩

namespace Grammar

variable {g g' : Grammar} {k : Nat} {v : Vocabulary} {e e' : Decision}
  {table table' : DecisionTable} {clean : Prop}

theorem Reorders.size_eq (hg : g.Reorders g') : g'.size = g.size := hg.rules.length_eq.symm

theorem Reorders.rule (hg : g.Reorders g') (r : RuleId) :
    SequenceReorders (g.rule r) (g'.rule r) := by
  unfold Grammar.rule
  cases hr : g.rules[r]? with
  | none =>
    have hr' : g'.rules[r]? = none := by
      rw [List.getElem?_eq_none_iff] at hr ⊢
      exact hg.rules.length_eq ▸ hr
    rw [hr']
    exact .nil
  | some sequence =>
    obtain ⟨sequence', hr', hsequence⟩ := exists_right_of_forall₂ hg.rules hr
    rw [hr']
    exact hsequence

theorem Reorders.nullableRules_eq (hg : g.Reorders g') : g'.nullableRules = g.nullableRules := by
  have hmark : g'.mark = g.mark := by
    funext marked r
    have hsame := sequenceNullable_congr
      ((hg.rule r).imp fun _ _ h => h.isNullable_eq marked.contains)
    rw [mark, mark, hsame]
  have hsweep : g'.sweep = g.sweep := by
    funext marked
    rw [sweep, sweep, hmark, ruleIds, ruleIds, hg.size_eq]
  have hsweeps (n : Nat) (marked : List RuleId) : g'.sweeps n marked = g.sweeps n marked := by
    induction n generalizing marked with
    | zero => rfl
    | succ n ih => rw [sweeps, sweeps, hsweep, ih]
  rw [nullableRules, nullableRules, hg.size_eq, hsweeps]

theorem Reorders.leadsTo_eq (hg : g.Reorders g') : g'.leadsTo = g.leadsTo := by
  funext r
  have hnullable : g'.isNullable = g.isNullable := by
    funext r
    rw [isNullable, isNullable, hg.nullableRules_eq]
  rw [leadsTo, leadsTo, hnullable, ruleIds, ruleIds, hg.size_eq]
  refine List.filter_congr fun r' _ => ?_
  rw [Bool.eq_iff_iff, List.contains_iff_mem, List.contains_iff_mem]
  exact mem_sequenceLeading_congr ((hg.rule r).imp fun _ _ h => h.leadsAlike g.isNullable) r'

/-- **The same rules are left recursive** in every order. -/
theorem Reorders.leftRecursion_eq (hg : g.Reorders g') : g'.leftRecursion = g.leftRecursion := by
  have htable : g'.leadTable = g.leadTable := by
    show (g'.ruleIds.map g'.leadsTo).toArray = (g.ruleIds.map g.leadsTo).toArray
    rw [hg.leadsTo_eq, ruleIds, ruleIds, hg.size_eq]
  have hname : g'.name = g.name := by
    funext r
    rw [name, name, hg.names]
  have hcycle : g'.cycle? = g.cycle? := by
    funext steps r
    rw [cycle?, cycle?, hg.size_eq]
  rw [leftRecursion, leftRecursion, htable, hname, hcycle, ruleIds, ruleIds, hg.size_eq]

/-! ## Acceptance -/

theorem Reorders.exists_decision (hg : g.Reorders g') (he : e' ∈ g'.decisions) :
    ∃ e ∈ g.decisions, ∃ order, e.Reorders e' order := by
  obtain ⟨ds, hds, hperm⟩ := hg.decisions
  obtain ⟨i, hi⟩ := List.mem_iff_getElem?.mp (hperm.mem_iff.mpr he)
  obtain ⟨e, he, hreorders⟩ := exists_left_of_forall₂ hds hi
  exact ⟨e, List.mem_of_getElem? he, hreorders⟩

theorem Reorders.nodup_keys (hg : g.Reorders g') (hkeys : (g.decisions.map (·.key)).Nodup) :
    (g'.decisions.map (·.key)).Nodup := by
  obtain ⟨ds, hds, hperm⟩ := hg.decisions
  have hsame {l l' : List Decision}
      (h : List.Forall₂ (fun d d' => ∃ order, d.Reorders d' order) l l') :
      l'.map (·.key) = l.map (·.key) := by
    induction h with
    | nil => rfl
    | cons hd _ ih =>
      obtain ⟨order, hd⟩ := hd
      rw [List.map_cons, List.map_cons, hd.key, ih]
  exact (hperm.map (·.key)).nodup_iff.mp (hsame hds ▸ hkeys)

end Grammar

theorem Production.Reorders.all_sound {p p' : Production} {n : Nat} {clean : Prop}
    (h : p.Reorders p') (hp : p.All (Production.Sound n clean)) :
    p'.All (Production.Sound n clean) := by
  refine h.induct (motive := fun p p' => p.All (Production.Sound n clean) →
    p'.All (Production.Sound n clean)) (fun _ h => h) (fun _ h => h) ?_ hp
  intro number number' key kind alternatives alternatives' order kept inside hp
  refine .decision (fun hclean hkind hnil => ?_) fun sequence' hmem => ?_
  · subst hnil
    refine hp.here hclean hkind (List.eq_nil_of_length_eq_zero ?_)
    by_contra hpos
    exact (order.symm ⟨0, Nat.pos_of_ne_zero hpos⟩).elim0
  · obtain ⟨sequence, hmem', hsequence⟩ := inside.exists_left hmem
    intro p' hp'
    obtain ⟨i, hi⟩ := List.mem_iff_getElem?.mp hp'
    obtain ⟨p, hi', himp⟩ := exists_left_of_forall₂ hsequence hi
    exact himp (hp.inside sequence hmem' p (List.mem_of_getElem? hi'))

namespace Vocabulary

theorem overlaps_comm (v : Vocabulary) (a b : TokenKind) : v.overlaps a b = v.overlaps b a := by
  simp only [overlaps, Bool.beq_comm (a := a), Bool.and_comm]

theorem pathsOverlap_comm (v : Vocabulary) (p q : Path) :
    v.pathsOverlap p q = v.pathsOverlap q p := by
  induction p generalizing q with
  | nil => cases q <;> rfl
  | cons a p ih =>
    cases q with
    | nil => rfl
    | cons b q => rw [pathsOverlap, pathsOverlap, overlaps_comm, ih]

end Vocabulary

namespace Grammar

variable {g g' : Grammar} {k : Nat} {v : Vocabulary} {e e' : Decision}
  {table table' : DecisionTable} {clean : Prop}

/-- A grammar in another order is as sound. -/
theorem Reorders.sound (hg : g.Reorders g') (hsound : g.Sound clean) : g'.Sound clean where
  rules := by
    intro sequence' hmem p' hp'
    obtain ⟨i, hi⟩ := List.mem_iff_getElem?.mp hmem
    obtain ⟨sequence, hsequence, hreorders⟩ := exists_left_of_forall₂ hg.rules hi
    obtain ⟨j, hj⟩ := List.mem_iff_getElem?.mp hp'
    obtain ⟨p, hp, hreorder⟩ := exists_left_of_forall₂ hreorders hj
    rw [hg.size_eq]
    exact hreorder.all_sound
      (hsound.rules sequence (List.mem_of_getElem? hsequence) p (List.mem_of_getElem? hp))
  decisions := by
    intro e' he'
    obtain ⟨e, he, order, hreorders⟩ := hg.exists_decision he'
    rw [hg.size_eq]
    exact hreorders.production.all_sound (hsound.decisions e he)

/-- Alternatives that can be told apart can be told apart in every order. -/
theorem Reorders.unambiguous (hg : g.Reorders g') {order} (he : e.Reorders e' order)
    (hkind : e.kind = .alternation) (h : g.IsTable k e table) (h' : g'.IsTable k e' table')
    (hapart : Unambiguous v table) : Unambiguous v table' := by
  have hkind' : e'.kind = .alternation := he.kind.trans hkind
  intro i j left right hlt hi hj p hp q hq
  obtain ⟨_, hleft', hopens⟩ := h'.exists_paths hkind' ⟨i, h'.lt_of_getElem? hkind' hi⟩
  obtain ⟨_, hright', hopens'⟩ := h'.exists_paths hkind' ⟨j, h'.lt_of_getElem? hkind' hj⟩
  obtain rfl := Option.some.inj (hi.symm.trans hleft')
  obtain rfl := Option.some.inj (hj.symm.trans hright')
  obtain ⟨left, hleft, hmem⟩ := h.exists_paths hkind (order ⟨i, h'.lt_of_getElem? hkind' hi⟩)
  obtain ⟨right, hright, hmem'⟩ := h.exists_paths hkind (order ⟨j, h'.lt_of_getElem? hkind' hj⟩)
  have hp' : p ∈ left := (hmem p).mpr ((hg.opens_iff (he.inside _)).mp ((hopens p).mp hp))
  have hq' : q ∈ right := (hmem' q).mpr ((hg.opens_iff (he.inside _)).mp ((hopens' q).mp hq))
  rcases Nat.lt_trichotomy (order ⟨i, h'.lt_of_getElem? hkind' hi⟩).val
    (order ⟨j, h'.lt_of_getElem? hkind' hj⟩).val with hbefore | hsame | hbehind
  · exact hapart _ _ left right hbefore hleft hright p hp' q hq'
  · have hplace := Fin.mk.inj (order.injective (Fin.ext hsame))
    omega
  · rw [Vocabulary.pathsOverlap_comm]
    exact hapart _ _ right left hbehind hright hleft q hq' p hp'

/-- **A grammar that passes the analysis passes it in every other order.** -/
theorem Reorders.exists_lookahead (hg : g.Reorders g') (hsound : g.Sound clean)
    (hleft : g.leftRecursion = []) (hkeys : (g.decisions.map (·.key)).Nodup) {tables : Lookahead}
    (h : g.lookahead? v k = some (tables, [])) :
    ∃ tables', g'.lookahead? v k = some (tables', []) := by
  obtain ⟨ts', hts', hlookahead'⟩ :=
    Grammar.exists_lookahead (hg.sound hsound) (hg.leftRecursion_eq.trans hleft) v k
  have hissues : g'.tableIssues v g'.decisions ts' = [] := by
    refine List.flatMap_eq_nil_iff.mpr fun ⟨e', table'⟩ hmem => ?_
    have hexact' := List.forall₂_zip hts' hmem
    obtain ⟨e, he, order, hreorders⟩ := hg.exists_decision (List.of_mem_zip hmem).1
    obtain ⟨table, -, hexact, hapart⟩ := exists_exact_table hsound hleft hkeys h he
    dsimp only
    split
    · next hkind =>
      have hkind' : e.kind = .alternation := hreorders.kind ▸ beq_iff_eq.mp hkind
      exact ambiguities_eq_nil_iff.mpr (hg.unambiguous hreorders hkind' hexact hexact' hapart)
    · rfl
  exact ⟨_, hissues ▸ hlookahead'⟩

end Grammar

end Palette
