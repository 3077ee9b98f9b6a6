import Mathlib.Data.List.Perm.Subperm
import Mathlib.Logic.Function.Iterate
import Palette.Grammar.Nullable
import Palette.Proofs.Grammar.Derivation

/-!
# The nullable rules are closed

Sweeping ends with marks that no further sweep adds to: it goes on as long as each sweep marks
something new, and the number of marks and of sweeps that are left is at least that of the rules. A
sweep that marks nothing new shows that there is nothing left to mark. So every rule with a nullable
sequence is marked, and with it everything that derives the empty word is nullable. The other way
round, a mark is only made of a sequence that derives the empty word by the marks made before.

Main statements: `Grammar.RuleSet.exists_iterate_sweeps`, `Grammar.isNullable_of_sequenceNullable`,
`Grammar.forall_nullable` and `Grammar.derives_nil_iff`.
-/

namespace Palette

/-! ## Decisions by their alternatives -/

theorem bodyNullable_eq (marked : RuleId → Bool) (bodies : List (List Production)) :
    bodyNullable marked bodies = sequenceNullable marked (bodyOf bodies) := by
  cases bodies <;> simp [bodyNullable, bodyOf, sequenceNullable]

theorem someNullable_eq (marked : RuleId → Bool) (alternatives : List (List Production)) :
    someNullable marked alternatives = alternatives.any (sequenceNullable marked) := by
  induction alternatives with
  | nil => simp [someNullable]
  | cons sequence rest ih => rw [someNullable, ih, List.any_cons]

namespace Grammar

variable {g : Grammar} {marked : List RuleId} {r : RuleId}

/-! ## Lists of different rules -/

/-- The list is of rules of the grammar, each of them once. -/
structure RuleSet (g : Grammar) (l : List RuleId) : Prop where
  nodup : l.Nodup
  lt_size : ∀ r ∈ l, r < g.size

namespace RuleSet

variable {l : List RuleId}

theorem nil (g : Grammar) : g.RuleSet [] := ⟨List.nodup_nil, fun _ hr => nomatch hr⟩

theorem cons (h : g.RuleSet l) (hr : r < g.size) (hnew : r ∉ l) : g.RuleSet (r :: l) :=
  ⟨List.nodup_cons.mpr ⟨hnew, h.nodup⟩, List.forall_mem_cons.mpr ⟨hr, h.lt_size⟩⟩

theorem subperm (h : g.RuleSet l) : l.Subperm (List.range g.size) :=
  List.Nodup.subperm h.nodup fun r hr => List.mem_range.mpr (h.lt_size r hr)

theorem length_le (h : g.RuleSet l) : l.length ≤ g.size := by
  simpa only [List.length_range] using h.subperm.length_le

/-- As many as there are rules are all rules. -/
theorem mem_of_size_le (h : g.RuleSet l) (hsize : g.size ≤ l.length) (hr : r < g.size) : r ∈ l := by
  have hperm := h.subperm.perm_of_length_le (by rwa [List.length_range])
  exact hperm.mem_iff.mpr (List.mem_range.mpr hr)

end RuleSet

/-! ## What a sweep leaves -/

theorem suffix_mark (g : Grammar) (marked : List RuleId) (r : RuleId) :
    marked <:+ g.mark marked r := by
  unfold mark
  split
  · exact List.suffix_cons r marked
  · exact List.suffix_refl marked

theorem suffix_foldl_mark (g : Grammar) (l : List RuleId) (marked : List RuleId) :
    marked <:+ l.foldl g.mark marked := by
  induction l generalizing marked with
  | nil => exact List.suffix_refl marked
  | cons r rest ih => exact (g.suffix_mark marked r).trans (ih _)

theorem suffix_sweep (g : Grammar) (marked : List RuleId) : marked <:+ g.sweep marked :=
  g.suffix_foldl_mark g.ruleIds marked

theorem RuleSet.mark (h : g.RuleSet marked) (hr : r < g.size) : g.RuleSet (g.mark marked r) := by
  unfold Grammar.mark
  split
  · next hnew =>
    simp only [Bool.and_eq_true, Bool.not_eq_true', List.contains_eq_mem,
      decide_eq_false_iff_not] at hnew
    exact h.cons hr hnew.1
  · exact h

theorem RuleSet.foldl_mark (h : g.RuleSet marked) {l : List RuleId} (hl : ∀ r ∈ l, r < g.size) :
    g.RuleSet (l.foldl g.mark marked) := by
  induction l generalizing marked with
  | nil => exact h
  | cons r rest ih =>
    obtain ⟨hr, hrest⟩ := List.forall_mem_cons.mp hl
    exact ih (h.mark hr) hrest

theorem RuleSet.sweep (h : g.RuleSet marked) : g.RuleSet (g.sweep marked) :=
  h.foldl_mark fun _ hr => List.mem_range.mp hr

/-- Whether every rule with a nullable sequence is marked. -/
def Saturated (g : Grammar) (marked : List RuleId) : Prop :=
  ∀ r < g.size, sequenceNullable marked.contains (g.rule r) = true → r ∈ marked

/-- What marks nothing new would have marked every rule with a nullable sequence. -/
theorem mem_of_length_foldl_mark {l : List RuleId}
    (h : (l.foldl g.mark marked).length = marked.length) (hr : r ∈ l)
    (hnull : sequenceNullable marked.contains (g.rule r) = true) : r ∈ marked := by
  induction l with
  | nil => cases hr
  | cons q rest ih =>
    have hq := (g.suffix_mark marked q).length_le
    have hrest := (g.suffix_foldl_mark rest (g.mark marked q)).length_le
    rw [List.foldl_cons] at h
    have hsame : g.mark marked q = marked :=
      ((g.suffix_mark marked q).eq_of_length (by omega)).symm
    rcases List.mem_cons.mp hr with rfl | hr
    · by_contra hnot
      have hcons : g.mark marked r = r :: marked := by
        simp only [mark, hnull, List.contains_eq_mem, hnot, decide_false, Bool.not_false,
          Bool.and_true, if_true]
      have hlen := congrArg List.length (hcons.symm.trans hsame)
      rw [List.length_cons] at hlen
      omega
    · rw [hsame] at h
      exact ih h hr

/-- **Sweeping comes to its end by itself**: the sweeps go on as long as each of them marks
something new, and the next one would not. -/
theorem RuleSet.exists_iterate_sweeps (h : g.RuleSet marked) {n : Nat}
    (hn : g.size ≤ n + marked.length) :
    ∃ m ≤ n, g.sweeps n marked = g.sweep^[m] marked ∧
      g.sweep (g.sweeps n marked) = g.sweeps n marked ∧
      ∀ i < m, g.sweep (g.sweep^[i] marked) ≠ g.sweep^[i] marked := by
  induction n generalizing marked with
  | zero =>
    have hlen : marked.length = (g.sweep marked).length := by
      have := (g.suffix_sweep marked).length_le
      have := h.sweep.length_le
      omega
    exact ⟨0, Nat.le_refl 0, rfl, ((g.suffix_sweep marked).eq_of_length hlen).symm, nofun⟩
  | succ n ih =>
    simp only [sweeps]
    split
    · next hsame =>
      exact ⟨0, Nat.zero_le _, rfl, ((g.suffix_sweep marked).eq_of_length hsame.symm).symm, nofun⟩
    · next hmore =>
      have hle := (g.suffix_sweep marked).length_le
      obtain ⟨m, hm, heq, hend, hsteps⟩ := ih h.sweep (by omega)
      refine ⟨m + 1, Nat.succ_le_succ hm, heq, hend, fun i hi => ?_⟩
      cases i with
      | zero => exact fun hsame => hmore (congrArg List.length hsame)
      | succ i => exact hsteps i (Nat.lt_of_succ_lt_succ hi)

/-- Sweeps, as many as there are rules without a mark, mark every rule with a nullable sequence. -/
theorem RuleSet.saturated_sweeps (h : g.RuleSet marked) {n : Nat}
    (hn : g.size ≤ n + marked.length) : g.Saturated (g.sweeps n marked) := by
  obtain ⟨-, -, -, hend, -⟩ := h.exists_iterate_sweeps hn
  exact fun r hr hnull =>
    mem_of_length_foldl_mark (congrArg List.length hend) (List.mem_range.mpr hr) hnull

/-- **A rule with a nullable sequence is nullable.** -/
theorem isNullable_of_sequenceNullable (hr : r < g.size)
    (h : sequenceNullable g.isNullable (g.rule r) = true) : g.isNullable r = true := by
  have hsaturated : g.Saturated g.nullableRules := (RuleSet.nil g).saturated_sweeps (Nat.le_refl _)
  exact List.contains_iff_mem.mpr (hsaturated r hr h)

/-! ## What holds of all nullable rules -/

section

variable {P : RuleId → Prop} (hstep : ∀ marked : List RuleId, (∀ q ∈ marked, P q) →
  ∀ r < g.size, sequenceNullable marked.contains (g.rule r) = true → P r)
include hstep

theorem forall_foldl_mark {l : List RuleId} (hl : ∀ r ∈ l, r < g.size)
    (h : ∀ q ∈ marked, P q) : ∀ q ∈ l.foldl g.mark marked, P q := by
  induction l generalizing marked with
  | nil => exact h
  | cons r rest ih =>
    obtain ⟨hr, hrest⟩ := List.forall_mem_cons.mp hl
    refine ih hrest ?_
    unfold mark
    split
    · next hnew =>
      have hnull := (Bool.and_eq_true_iff.mp hnew).2
      exact List.forall_mem_cons.mpr ⟨hstep marked h r hr hnull, h⟩
    · exact h

theorem forall_sweeps (n : Nat) (h : ∀ q ∈ marked, P q) : ∀ q ∈ g.sweeps n marked, P q := by
  induction n generalizing marked with
  | zero => exact h
  | succ n ih =>
    simp only [sweeps]
    split
    · exact h
    · exact ih (forall_foldl_mark hstep (fun _ hr => List.mem_range.mp hr) h)

/-- **A property holds of all nullable rules** if it holds of each rule whose sequence is nullable
by marks of which it holds. -/
theorem forall_nullable (hr : g.isNullable r = true) : P r :=
  forall_sweeps hstep g.size (fun _ hq => absurd hq List.not_mem_nil) r
    (List.contains_iff_mem.mp hr)

end

/-! ## The empty word -/

/-- **What derives the empty word is nullable.** -/
theorem Derives.nullable {fits : TokenKind → TokenKind → Bool} {ps : List Production}
    (h : g.Derives fits ps []) : sequenceNullable g.isNullable ps = true := by
  generalize hw : ([] : List TokenKind) = w at h
  induction h with
  | nil => simp [sequenceNullable]
  | terminal fit rest => cases hw
  | @nonterminal r body _ _ _ rule inner rest ihinner ih =>
    obtain ⟨hu, hw⟩ := List.append_eq_nil_iff.mp hw.symm
    have hrule : g.rule r = body := by rw [Grammar.rule, rule, Option.getD_some]
    have hnull := isNullable_of_sequenceNullable (List.getElem?_eq_some_iff.mp rule).1
      (hrule ▸ ihinner hu.symm)
    rw [sequenceNullable, Production.isNullable, hnull, ih hw.symm, Bool.and_true]
  | optionNone rest ih => rw [sequenceNullable, Production.isNullable, ih hw, Bool.and_true]
  | optionSome inner rest _ ih =>
    obtain ⟨-, hw⟩ := List.append_eq_nil_iff.mp hw.symm
    rw [sequenceNullable, Production.isNullable, ih hw.symm, Bool.and_true]
  | manyDone rest ih => rw [sequenceNullable, Production.isNullable, ih hw, Bool.and_true]
  | manyMore inner rest _ ih =>
    obtain ⟨-, hw⟩ := List.append_eq_nil_iff.mp hw.symm
    exact ih hw.symm
  | atLeastOne inner rest ihinner ih =>
    obtain ⟨hu, hw⟩ := List.append_eq_nil_iff.mp hw.symm
    have hrest := ih hw.symm
    rw [sequenceNullable, Bool.and_eq_true] at hrest
    rw [sequenceNullable, Production.isNullable, bodyNullable_eq, ihinner hu.symm, hrest.2,
      Bool.and_true]
  | alternation chosen inner rest ihinner ih =>
    obtain ⟨hu, hw⟩ := List.append_eq_nil_iff.mp hw.symm
    have hany := List.any_eq_true.mpr ⟨_, chosen, ihinner hu.symm⟩
    rw [sequenceNullable, Production.isNullable, someNullable_eq, hany, ih hw.symm, Bool.and_true]

section

variable {fits : TokenKind → TokenKind → Bool} {isMarked : RuleId → Bool}

/-- Every marked rule derives the empty word. -/
def MarksDeriveNil (g : Grammar) (fits : TokenKind → TokenKind → Bool) (isMarked : RuleId → Bool) :
    Prop :=
  ∀ r, isMarked r = true → g.Derives fits [.nonterminal r] []

mutual

/-- What is nullable by marks of rules that derive the empty word derives it too. -/
theorem MarksDeriveNil.production (hg : g.MarksDeriveNil fits isMarked) (p : Production)
    (h : p.isNullable isMarked = true) : g.Derives fits [p] [] :=
  match p with
  | .terminal _ => by simp [Production.isNullable] at h
  | .nonterminal r => hg r (by rwa [Production.isNullable] at h)
  | .decision _ _ .option _ => .optionNone .nil
  | .decision _ _ .many _ => .manyDone .nil
  | .decision _ _ .atLeastOne bodies => by
    rw [Production.isNullable] at h
    exact .atLeastOne (hg.body bodies h) (.manyDone .nil)
  | .decision _ _ .alternation alternatives => by
    rw [Production.isNullable] at h
    obtain ⟨sequence, chosen, inner⟩ := hg.alternatives alternatives h
    exact .alternation chosen inner .nil

theorem MarksDeriveNil.sequence (hg : g.MarksDeriveNil fits isMarked) (ps : List Production)
    (h : sequenceNullable isMarked ps = true) : g.Derives fits ps [] :=
  match ps with
  | [] => .nil
  | p :: rest => by
    rw [sequenceNullable, Bool.and_eq_true] at h
    exact (hg.production p h.1).append (hg.sequence rest h.2)

theorem MarksDeriveNil.body (hg : g.MarksDeriveNil fits isMarked)
    (bodies : List (List Production)) (h : bodyNullable isMarked bodies = true) :
    g.Derives fits (bodyOf bodies) [] :=
  match bodies with
  | [] => .nil
  | body :: _ => hg.sequence body (by rwa [bodyNullable] at h)

theorem MarksDeriveNil.alternatives (hg : g.MarksDeriveNil fits isMarked)
    (alternatives : List (List Production)) (h : someNullable isMarked alternatives = true) :
    ∃ sequence ∈ alternatives, g.Derives fits sequence [] :=
  match alternatives with
  | [] => by simp [someNullable] at h
  | sequence :: rest => by
    rw [someNullable, Bool.or_eq_true] at h
    rcases h with h | h
    · exact ⟨sequence, List.mem_cons_self, hg.sequence sequence h⟩
    · obtain ⟨chosen, hmem, hnil⟩ := hg.alternatives rest h
      exact ⟨chosen, List.mem_cons_of_mem sequence hmem, hnil⟩

end

end

/-- **The nullable sequences are those that derive the empty word.** -/
theorem derives_nil_iff {fits : TokenKind → TokenKind → Bool} {ps : List Production} :
    g.Derives fits ps [] ↔ sequenceNullable g.isNullable ps = true := by
  have hstep : ∀ marked : List RuleId, (∀ q ∈ marked, g.Derives fits [.nonterminal q] []) →
      ∀ r < g.size, sequenceNullable marked.contains (g.rule r) = true →
        g.Derives fits [.nonterminal r] [] := by
    intro marked hmarked r hr hnull
    have hg : g.MarksDeriveNil fits marked.contains :=
      fun q hq => hmarked q (List.contains_iff_mem.mp hq)
    exact .of_rule hr (hg.sequence (g.rule r) hnull)
  have hg : g.MarksDeriveNil fits g.isNullable := fun _ hr => forall_nullable hstep hr
  exact ⟨Derives.nullable, hg.sequence ps⟩

end Grammar

end Palette
