import Mathlib.Logic.Relation
import Palette.Proofs.Grammar.Derivation
import Palette.Proofs.Grammar.Opening

/-!
# Sentential forms

A sequence of productions is rewritten by putting something that a production stands for in its
place: the sequence of a rule, one of the alternatives, or one round more of a repetition. Whatever
comes of the sequence on the way is a sentential form of it, and one of terminals only is a word.

What a sequence opens with is said in these terms. A path that leaves room in its budget is a whole
word; one that uses it up begins a sentential form, which need not come to a word at all.

Main statements: `Grammar.opens_iff` and `Grammar.derives_iff_reaches`.
-/

namespace Palette

namespace Grammar

/-- What can stand in the place of a production. -/
inductive Expands (g : Grammar) : Production → List Production → Prop where
  | nonterminal {r body} (rule : g.rules[r]? = some body) : Expands g (.nonterminal r) body
  | optionNone {number key bodies} : Expands g (.decision number key .option bodies) []
  | optionSome {number key bodies} :
    Expands g (.decision number key .option bodies) (bodyOf bodies)
  | manyDone {number key bodies} : Expands g (.decision number key .many bodies) []
  | manyMore {number key bodies} :
    Expands g (.decision number key .many bodies)
      (bodyOf bodies ++ [.decision number key .many bodies])
  | atLeastOne {number key bodies} :
    Expands g (.decision number key .atLeastOne bodies)
      (bodyOf bodies ++ [.decision number key .many bodies])
  | alternation {number key alternatives sequence} (chosen : sequence ∈ alternatives) :
    Expands g (.decision number key .alternation alternatives) sequence

/-- One production, anywhere in the sequence, is replaced by what can stand in its place. -/
inductive Rewrites (g : Grammar) : List Production → List Production → Prop where
  | step {p inner} (front : List Production) (expands : g.Expands p inner)
      (behind : List Production) :
    Rewrites g (front ++ p :: behind) (front ++ (inner ++ behind))

/-- The second sequence is a sentential form of the first one. -/
def Reaches (g : Grammar) : List Production → List Production → Prop :=
  Relation.ReflTransGen g.Rewrites

variable {g : Grammar} {b k : Nat} {p : Production} {ps ps' qs qs' inner : List Production}
  {u w : Path}

/-! ## Rewriting beside other productions -/

theorem Rewrites.append_left (h : g.Rewrites qs qs') (ps : List Production) :
    g.Rewrites (ps ++ qs) (ps ++ qs') := by
  obtain ⟨front, expands, behind⟩ := h
  rw [← List.append_assoc, ← List.append_assoc]
  exact .step (ps ++ front) expands behind

theorem Rewrites.append_right (h : g.Rewrites ps ps') (qs : List Production) :
    g.Rewrites (ps ++ qs) (ps' ++ qs) := by
  obtain ⟨front, expands, behind⟩ := h
  rw [List.append_assoc, List.append_assoc, List.append_assoc]
  exact .step front expands (behind ++ qs)

namespace Reaches

theorem refl (ps : List Production) : g.Reaches ps ps := Relation.ReflTransGen.refl

theorem append (h : g.Reaches ps ps') (h' : g.Reaches qs qs') :
    g.Reaches (ps ++ qs) (ps' ++ qs') := by
  have hfront : g.Reaches (ps ++ qs) (ps' ++ qs) :=
    Relation.ReflTransGen.lift (· ++ qs) (fun _ _ hstep => Rewrites.append_right hstep qs) _ _ h
  exact hfront.trans <|
    Relation.ReflTransGen.lift (ps' ++ ·) (fun _ _ hstep => Rewrites.append_left hstep ps') _ _ h'

/-- The first production is replaced, and what is reached then is reached. -/
theorem head (hp : g.Expands p inner) (h : g.Reaches (inner ++ ps) qs) :
    g.Reaches (p :: ps) qs :=
  Relation.ReflTransGen.head (.step [] hp ps) h

end Reaches

/-! ## Back along the rewriting -/

/-- Two sequences in a row open with what the first one opens with, and then with the second. -/
theorem opens_append_iff : g.Opens b (ps ++ qs) w ↔
    ∃ u v, w = u ++ v ∧ g.Opens b ps u ∧ g.Opens (b - u.length) qs v := by
  constructor
  · intro h
    induction ps generalizing b w with
    | nil => exact ⟨[], w, rfl, .nil, h⟩
    | cons p ps ih =>
      obtain ⟨x, y, rfl, hx, hy⟩ := opens_cons_iff.mp h
      obtain ⟨u, v, rfl, hu, hv⟩ := ih hy
      refine ⟨x ++ u, v, (List.append_assoc ..).symm, opens_cons_iff.mpr ⟨x, u, rfl, hx, hu⟩, ?_⟩
      rwa [List.length_append, ← Nat.sub_sub]
  · rintro ⟨u, v, rfl, hu, hv⟩
    exact hu.append hv

/-- A production opens with what anything in its place opens with. -/
theorem Expands.opens (hp : g.Expands p inner) (h : g.Opens b inner w) : g.Opens b [p] w := by
  cases hp with
  | nonterminal rule => exact List.append_nil w ▸ .nonterminal rule h .nil
  | optionNone => exact .optionNone h
  | optionSome => exact List.append_nil w ▸ .optionSome h .nil
  | manyDone => exact .manyDone h
  | manyMore =>
    obtain ⟨u, v, rfl, hu, hv⟩ := opens_append_iff.mp h
    exact .manyMore hu hv
  | atLeastOne =>
    obtain ⟨u, v, rfl, hu, hv⟩ := opens_append_iff.mp h
    exact .atLeastOne hu hv
  | alternation chosen => exact List.append_nil w ▸ .alternation chosen h .nil

/-- **A sequence opens with what its sentential forms open with.** -/
theorem Reaches.opens (hreaches : g.Reaches ps qs) (h : g.Opens b qs w) : g.Opens b ps w := by
  induction hreaches using Relation.ReflTransGen.head_induction_on with
  | refl => exact h
  | head hstep _ ih =>
    obtain ⟨front, expands, behind⟩ := hstep
    obtain ⟨u, v, rfl, hu, hv⟩ := opens_append_iff.mp ih
    obtain ⟨x, y, rfl, hx, hy⟩ := opens_append_iff.mp hv
    exact hu.append (opens_cons_iff.mpr ⟨x, y, rfl, expands.opens hx, hy⟩)

theorem opens_terminals (h : w.length ≤ b) : g.Opens b (w.map .terminal) w := by
  induction w generalizing b with
  | nil => exact .nil
  | cons kind w ih =>
    cases b with
    | zero => exact absurd h (Nat.not_succ_le_zero _)
    | succ b => exact .terminal (ih (Nat.le_of_succ_le_succ h))

/-- Where the terminals in front use up the budget, nothing is asked of what is behind them. -/
theorem opens_terminals_append (w : Path) (rest : List Production) :
    g.Opens w.length (w.map .terminal ++ rest) w := by
  have hrest : g.Opens (w.length - w.length) rest [] := by simp
  simpa using (opens_terminals (Nat.le_refl _)).append hrest

/-! ## Forth along an opening -/

/-- The sequence has a sentential form that begins with the path, and which is the path alone
if the budget was not used up. -/
def ReachesWithin (g : Grammar) (b : Nat) (ps : List Production) (w : Path) : Prop :=
  ∃ rest, g.Reaches ps (w.map .terminal ++ rest) ∧ (w.length < b → rest = [])

/-- A path that uses up the budget is followed by nothing. -/
theorem ReachesWithin.append (h : g.ReachesWithin b ps u) (hu : u.length ≤ b)
    (h' : g.ReachesWithin (b - u.length) qs w) (hw : w.length ≤ b - u.length) :
    g.ReachesWithin b (ps ++ qs) (u ++ w) := by
  obtain ⟨x, hx, hxnil⟩ := h
  obtain ⟨y, hy, hynil⟩ := h'
  rcases Nat.lt_or_eq_of_le hu with hlt | heq
  · obtain rfl := hxnil hlt
    refine ⟨y, ?_, fun hlen => hynil ?_⟩
    · have hboth := hx.append hy
      rwa [List.append_nil, ← List.append_assoc, ← List.map_append] at hboth
    · rw [List.length_append] at hlen
      omega
  · obtain rfl : w = [] := List.eq_nil_of_length_eq_zero (by omega)
    refine ⟨x ++ qs, ?_, fun hlen => ?_⟩
    · have hfront := hx.append (.refl qs)
      rwa [List.append_assoc, ← List.append_nil u] at hfront
    · rw [List.append_nil] at hlen
      omega

theorem ReachesWithin.head (hp : g.Expands p inner) (h : g.ReachesWithin b (inner ++ ps) w) :
    g.ReachesWithin b (p :: ps) w := by
  obtain ⟨rest, hrest, hnil⟩ := h
  exact ⟨rest, .head hp hrest, hnil⟩

/-- **What a sequence opens with begins a sentential form**, which ends with it if there is room
left in the budget. -/
theorem Opens.reachesWithin (h : g.Opens b ps w) : g.ReachesWithin b ps w := by
  induction h with
  | @full ps => exact ⟨ps, .refl ps, fun hlt => absurd hlt (Nat.lt_irrefl 0)⟩
  | nil => exact ⟨[], .refl [], fun _ => rfl⟩
  | @terminal b kind ps w rest ih =>
    obtain ⟨x, hx, hnil⟩ := ih
    exact ⟨x, Reaches.append (.refl [.terminal kind]) hx,
      fun hlt => hnil (Nat.lt_of_succ_lt_succ hlt)⟩
  | nonterminal rule inner rest ihinner ih =>
    exact .head (.nonterminal rule) (ihinner.append inner.length_le ih rest.length_le)
  | optionNone rest ih => exact .head .optionNone ih
  | optionSome inner rest ihinner ih =>
    exact .head .optionSome (ihinner.append inner.length_le ih rest.length_le)
  | manyDone rest ih => exact .head .manyDone ih
  | manyMore inner rest ihinner ih =>
    have hround := ihinner.append inner.length_le ih rest.length_le
    exact .head .manyMore (by rwa [List.append_assoc])
  | atLeastOne inner rest ihinner ih =>
    have hround := ihinner.append inner.length_le ih rest.length_le
    exact .head .atLeastOne (by rwa [List.append_assoc])
  | alternation chosen inner rest ihinner ih =>
    exact .head (.alternation chosen) (ihinner.append inner.length_le ih rest.length_le)

/-! ## Words -/

/-- A sequence opens with its words. -/
theorem Derives.opens (h : g.Derives (· == ·) ps w) (hw : w.length ≤ b) : g.Opens b ps w := by
  induction h generalizing b with
  | nil => exact .nil
  | terminal fit rest ih =>
    cases b with
    | zero => exact absurd hw (Nat.not_succ_le_zero _)
    | succ b =>
      obtain rfl := beq_iff_eq.mp fit
      exact .terminal (ih (Nat.le_of_succ_le_succ hw))
  | optionNone rest ih => exact .optionNone (ih hw)
  | manyDone rest ih => exact .manyDone (ih hw)
  | nonterminal rule inner rest ihinner ih =>
    rw [List.length_append] at hw
    exact .nonterminal rule (ihinner (by omega)) (ih (by omega))
  | optionSome inner rest ihinner ih =>
    rw [List.length_append] at hw
    exact .optionSome (ihinner (by omega)) (ih (by omega))
  | manyMore inner rest ihinner ih =>
    rw [List.length_append] at hw
    exact .manyMore (ihinner (by omega)) (ih (by omega))
  | atLeastOne inner rest ihinner ih =>
    rw [List.length_append] at hw
    exact .atLeastOne (ihinner (by omega)) (ih (by omega))
  | alternation chosen inner rest ihinner ih =>
    rw [List.length_append] at hw
    exact .alternation chosen (ihinner (by omega)) (ih (by omega))

/-- A path that leaves room in the budget is a word. -/
theorem Opens.derives (h : g.Opens b ps w) (hw : w.length < b) : g.Derives (· == ·) ps w := by
  induction h with
  | full => exact absurd hw (Nat.lt_irrefl 0)
  | nil => exact .nil
  | terminal rest ih => exact .terminal (beq_self_eq_true _) (ih (Nat.lt_of_succ_lt_succ hw))
  | optionNone rest ih => exact .optionNone (ih hw)
  | manyDone rest ih => exact .manyDone (ih hw)
  | nonterminal rule inner rest ihinner ih =>
    rw [List.length_append] at hw
    exact .nonterminal rule (ihinner (by omega)) (ih (by omega))
  | optionSome inner rest ihinner ih =>
    rw [List.length_append] at hw
    exact .optionSome (ihinner (by omega)) (ih (by omega))
  | manyMore inner rest ihinner ih =>
    rw [List.length_append] at hw
    exact .manyMore (ihinner (by omega)) (ih (by omega))
  | atLeastOne inner rest ihinner ih =>
    rw [List.length_append] at hw
    exact .atLeastOne (ihinner (by omega)) (ih (by omega))
  | alternation chosen inner rest ihinner ih =>
    rw [List.length_append] at hw
    exact .alternation chosen (ihinner (by omega)) (ih (by omega))

/-- **The words of a sequence are its sentential forms of terminals only.** -/
theorem derives_iff_reaches : g.Derives (· == ·) ps w ↔ g.Reaches ps (w.map .terminal) := by
  constructor
  · intro h
    obtain ⟨rest, hrest, hnil⟩ := (h.opens (Nat.le_succ w.length)).reachesWithin
    rwa [hnil (Nat.lt_succ_self _), List.append_nil] at hrest
  · intro h
    exact (h.opens (opens_terminals (Nat.le_succ _))).derives (Nat.lt_succ_self _)

/-- **What a sequence opens with** within a budget is a word shorter than that, or it is of that
length and begins a sentential form. -/
theorem opens_iff : g.Opens k ps w ↔
    w.length < k ∧ g.Derives (· == ·) ps w ∨
      w.length = k ∧ ∃ rest, g.Reaches ps (w.map .terminal ++ rest) := by
  constructor
  · intro h
    rcases Nat.lt_or_eq_of_le h.length_le with hlt | heq
    · exact .inl ⟨hlt, h.derives hlt⟩
    · obtain ⟨rest, hrest, -⟩ := h.reachesWithin
      exact .inr ⟨heq, rest, hrest⟩
  · rintro (⟨hlt, h⟩ | ⟨rfl, rest, h⟩)
    · exact h.opens hlt.le
    · exact h.opens (opens_terminals_append w rest)

end Grammar

end Palette
