import Mathlib
import Palette.Proofs.Grammar.Opening
import Palette.Proofs.Grammar.PathOrder

/-!
# The computed paths are exact

The paths that are computed for a sequence are those that it opens with, each once and in order;
and where no rule is left recursive, the computation ends with them, whatever paths of rules it
knows already.

Two things are said together of each step of the computation, that it ends and what it gives,
relative to the paths known before and after it (`Yields`). A sequence asks for the paths of a
rule within a smaller budget, or else behind nothing but nullable productions; so the number of
expansions that are nested is bounded by the budget and the rank of the rule (`expansions`).

Main statements: `Grammar.yields_rulePaths` and `Grammar.yields_paths`.
-/

namespace Palette

namespace Grammar

/-- The list holds the paths that the sequence opens with, in order. -/
structure IsPathSet (g : Grammar) (budget : Nat) (ps : List Production) (paths : List Path) :
    Prop where
  mem_iff : ∀ w, w ∈ paths ↔ g.Opens budget ps w
  ordered : Path.Ordered paths

/-- The paths that are known are right. -/
def Knows (g : Grammar) (memo : PathMemo) : Prop :=
  ∀ r budget paths, memo.lookup (r, budget) = some paths → g.IsPathSet budget (g.rule r) paths

/-- Whatever is known, the computation ends with a value as it should be. -/
def Yields (g : Grammar) {α : Type} (m : PathM α) (post : α → Prop) : Prop :=
  ∀ memo, g.Knows memo → ∃ a memo', m memo = some (a, memo') ∧ g.Knows memo' ∧ post a

variable {g : Grammar} {α β ι : Type} {budget : Nat}

namespace Yields

theorem pure {a : α} {post : α → Prop} (h : post a) : g.Yields (pure a) post :=
  fun memo hmemo => ⟨a, memo, rfl, hmemo, h⟩

theorem bind {m : PathM α} {f : α → PathM β} {post : α → Prop} {post' : β → Prop}
    (h : g.Yields m post) (hf : ∀ a, post a → g.Yields (f a) post') :
    g.Yields (m >>= f) post' := by
  intro memo hmemo
  obtain ⟨a, between, hm, hbetween, ha⟩ := h memo hmemo
  obtain ⟨b, memo', hf, hmemo', hb⟩ := hf a ha between hbetween
  refine ⟨b, memo', ?_, hmemo', hb⟩
  simp only [Bind.bind, StateT.bind, hm, Option.bind_some, hf]

theorem mono {m : PathM α} {post post' : α → Prop} (h : g.Yields m post)
    (hpost : ∀ a, post a → post' a) : g.Yields m post' := by
  intro memo hmemo
  obtain ⟨a, memo', hm, hmemo', ha⟩ := h memo hmemo
  exact ⟨a, memo', hm, hmemo', hpost a ha⟩

theorem mapM {f : ι → PathM β} {post : ι → β → Prop} {l : List ι}
    (h : ∀ i ∈ l, g.Yields (f i) (post i)) : g.Yields (l.mapM f) (List.Forall₂ post l) := by
  induction l with
  | nil =>
    rw [List.mapM_nil]
    exact .pure .nil
  | cons i rest ih =>
    obtain ⟨hi, hrest⟩ := List.forall_mem_cons.mp h
    rw [List.mapM_cons]
    exact hi.bind fun b hb => (ih hrest).bind fun bs hbs => .pure (.cons hb hbs)

end Yields

/-- What is in the paths of one step or another is what one of the steps gives. -/
theorem mem_flatten_of_forall₂ {post : ι → Path → Prop} {l : List ι} {parts : List (List Path)}
    (h : List.Forall₂ (fun i part => ∀ w, w ∈ part ↔ post i w) l parts) (w : Path) :
    w ∈ parts.flatten ↔ ∃ i ∈ l, post i w := by
  induction h with
  | nil => simp
  | cons hi _ ih => simp [hi, ih]

/-! ## Sequences -/

/--
Whatever a production or a sequence may ask for is served: the paths of every rule within a smaller
budget, and within the same budget those of the rules that it leads to.
-/
def Serves (g : Grammar) (rule : RuleId → Nat → PathM (List Path)) (budget : Nat)
    (leading : List RuleId) : Prop :=
  ∀ r < g.size, ∀ b, 0 < b → b < budget ∨ b = budget ∧ r ∈ leading →
    g.Yields (rule r b) (g.IsPathSet b (g.rule r))

variable {rule : RuleId → Nat → PathM (List Path)} {leading leading' : List RuleId}
  {p : Production} {ps : List Production}

theorem Serves.mono (h : g.Serves rule budget leading) (hsub : leading' ⊆ leading) :
    g.Serves rule budget leading' :=
  fun r hr b hb hask => h r hr b hb (hask.imp_right fun ⟨heq, hmem⟩ => ⟨heq, hsub hmem⟩)

theorem Serves.smaller {b : Nat} (h : g.Serves rule budget leading) (hb : b < budget) :
    g.Serves rule b leading' := by
  refine fun r hr c hc hask => h r hr c hc (.inl ?_)
  rcases hask with hlt | ⟨rfl, -⟩
  · exact Nat.lt_trans hlt hb
  · exact hb

/-- The paths of the production are computed within every budget. -/
def Computes (g : Grammar) (rule : RuleId → Nat → PathM (List Path)) (p : Production) : Prop :=
  ∀ budget, g.Serves rule budget (p.leading g.isNullable) →
    g.Yields (p.paths rule budget) (g.IsPathSet budget [p])

/-- A path that leaves room goes on with what the sequence behind it opens with. -/
theorem yields_join {path : Path} {m : PathM (List Path)}
    (hm : path.length < budget → g.Yields m (g.IsPathSet (budget - path.length) ps)) :
    g.Yields (if budget ≤ path.length then return [path] else return (← m).map (path ++ ·))
      fun part => ∀ w, w ∈ part ↔ ∃ v, w = path ++ v ∧ g.Opens (budget - path.length) ps v := by
  split
  · next hfull =>
    refine .pure fun w => ?_
    rw [Nat.sub_eq_zero_of_le hfull]
    simp
  · next hroom =>
    refine (hm (Nat.lt_of_not_le hroom)).bind fun suffixes hsuffixes => .pure fun w => ?_
    simp only [List.mem_map, hsuffixes.mem_iff]
    exact ⟨fun ⟨v, hv, hw⟩ => ⟨v, hw.symm, hv⟩, fun ⟨v, hw, hv⟩ => ⟨v, hv, hw.symm⟩⟩

/-- Paths go on with what is behind them. -/
theorem yields_continuePaths (hps : ∀ p ∈ ps, g.Computes rule p)
    (hserves : g.Serves rule budget leading) {paths : List Path} (hpaths : Path.Ordered paths)
    (hleading : [] ∈ paths → sequenceLeading g.isNullable ps ⊆ leading) :
    g.Yields (continuePaths rule ps budget paths) fun paths' =>
      (∀ w, w ∈ paths' ↔ ∃ u ∈ paths, ∃ v, w = u ++ v ∧ g.Opens (budget - u.length) ps v) ∧
        Path.Ordered paths' := by
  induction ps generalizing paths with
  | nil =>
    rw [continuePaths]
    exact .pure ⟨fun w => by simp, hpaths⟩
  | cons p rest ih =>
    obtain ⟨hp, hrest⟩ := List.forall_mem_cons.mp hps
    rw [continuePaths]
    split
    · next hfull =>
      -- No path has room for anything behind it.
      refine .pure ⟨fun w => ?_, hpaths⟩
      have hnone : ∀ u ∈ paths, budget - u.length = 0 := fun u hu =>
        Nat.sub_eq_zero_of_le (decide_eq_true_eq.mp (List.all_eq_true.mp hfull u hu))
      constructor
      · exact fun hw => ⟨w, hw, [], (List.append_nil w).symm, by simp [hnone w hw]⟩
      · rintro ⟨u, hu, v, rfl, hv⟩
        rw [hnone u hu, opens_zero_iff] at hv
        rwa [hv, List.append_nil]
    · next hroom =>
      have hbudget : 0 < budget := by
        refine Nat.pos_of_ne_zero fun hzero => hroom (List.all_eq_true.mpr fun u _ => ?_)
        simp [hzero]
      refine (Yields.mapM fun path hpath => yields_join fun hlen => hp _ ?_).bind
        fun parts hparts => ?_
      · cases path with
        | nil => exact hserves.mono fun r hr => hleading hpath (List.mem_append_left _ hr)
        | cons a path => exact hserves.smaller (Nat.sub_lt hbudget (Nat.succ_pos _))
      have hnext : ∀ w, w ∈ Path.sorted parts.flatten ↔ ∃ u ∈ paths, ∃ v, w = u ++ v ∧
          g.Opens (budget - u.length) [p] v := fun w => by
        rw [Path.mem_sorted, mem_flatten_of_forall₂ hparts]
      refine (ih hrest (Path.ordered_sorted _) fun hempty => ?_).mono fun paths' hpaths' =>
        ⟨fun w => ?_, hpaths'.2⟩
      · -- The empty path is left over only behind a production that is nullable.
        obtain ⟨u, hu, v, huv, hv⟩ := (hnext []).mp hempty
        obtain ⟨rfl, rfl⟩ := List.append_eq_nil_iff.mp huv.symm
        have hnull := hv.nullable hbudget
        rw [sequenceNullable, Bool.and_eq_true] at hnull
        refine fun r hr => hleading hu (List.mem_append_right _ ?_)
        rwa [if_pos hnull.1]
      · rw [hpaths'.1]
        constructor
        · rintro ⟨x, hx, v, rfl, hv⟩
          obtain ⟨u, hu, y, rfl, hy⟩ := (hnext x).mp hx
          rw [List.length_append, ← Nat.sub_sub] at hv
          exact ⟨u, hu, y ++ v, List.append_assoc .., opens_cons_iff.mpr ⟨y, v, rfl, hy, hv⟩⟩
        · rintro ⟨u, hu, z, rfl, hz⟩
          obtain ⟨y, v, rfl, hy, hv⟩ := opens_cons_iff.mp hz
          refine ⟨u ++ y, (hnext _).mpr ⟨u, hu, y, rfl, hy⟩, v, (List.append_assoc ..).symm, ?_⟩
          rwa [List.length_append, ← Nat.sub_sub]

/-- The paths of a sequence are exact if those of its productions are. -/
theorem yields_sequencePaths (hps : ∀ p ∈ ps, g.Computes rule p)
    (hserves : g.Serves rule budget (sequenceLeading g.isNullable ps)) :
    g.Yields (sequencePaths rule ps budget) (g.IsPathSet budget ps) :=
  (yields_continuePaths hps hserves (Path.ordered_singleton []) fun _ => List.Subset.refl _).mono
    fun paths hpaths => ⟨fun w => by simp [hpaths.1 w], hpaths.2⟩

/-! ## Decisions -/

/-- A decision with a single body asks for the paths of that body. -/
theorem bodyPaths_eq (rule : RuleId → Nat → PathM (List Path))
    (bodies : List (List Production)) (budget : Nat) :
    bodyPaths rule bodies budget = sequencePaths rule (bodyOf bodies) budget := by
  cases bodies <;> simp [bodyPaths, sequencePaths, bodyOf, continuePaths]

/-- An alternation asks for the paths of each alternative. -/
theorem alternativePaths_eq (rule : RuleId → Nat → PathM (List Path))
    (alternatives : List (List Production)) (budget : Nat) :
    alternativePaths rule alternatives budget
      = alternatives.mapM fun sequence => sequencePaths rule sequence budget := by
  induction alternatives with
  | nil => simp [alternativePaths]
  | cons sequence rest ih => rw [alternativePaths, ih, List.mapM_cons]; rfl

/-- Rounds of a body in a row are what a repetition of it opens with. -/
theorem yields_repetition (number : Nat) (key : DecisionKey) {bodies : List (List Production)}
    {body : Nat → PathM (List Path)}
    (hbody : ∀ b ≤ budget, g.Yields (body b) (g.IsPathSet b (bodyOf bodies))) :
    g.Yields (repetition body budget)
      (g.IsPathSet budget [.decision number key .many bodies]) := by
  induction budget using Nat.strongRecOn with
  | ind budget ih =>
    rw [repetition]
    split
    · next hzero =>
      subst hzero
      exact .pure ⟨fun w => by simp, Path.ordered_singleton []⟩
    · next hbudget =>
      have hround (first : Path) : g.Yields
          (if first.length = 0 then return []
            else if budget ≤ first.length then return [first]
            else return (← repetition body (budget - first.length)).map (first ++ ·))
          fun part => ∀ w, w ∈ part ↔ first ≠ [] ∧ ∃ v, w = first ++ v ∧
            g.Opens (budget - first.length) [.decision number key .many bodies] v := by
        split
        · next hempty =>
          obtain rfl := List.eq_nil_of_length_eq_zero hempty
          exact .pure fun w => by simp
        · next htoken =>
          have hne : first ≠ [] := fun h => htoken (h ▸ rfl)
          simp only [hne, ne_eq, not_false_eq_true, true_and]
          exact yields_join fun _ => ih _ (by omega) fun b hb => hbody b (by omega)
      refine (hbody budget (Nat.le_refl _)).bind fun firsts hfirsts =>
        (Yields.mapM fun first _ => hround first).bind fun parts hparts =>
          .pure ⟨fun w => ?_, Path.ordered_sorted _⟩
      rw [Path.mem_sorted, List.mem_append, List.mem_singleton, mem_flatten_of_forall₂ hparts,
        opens_many_iff]
      simp only [hfirsts.mem_iff]
      exact or_congr_right ⟨fun ⟨u, hu, hne, v, hw, hv⟩ => ⟨u, v, hne, hw, hu, hv⟩,
        fun ⟨u, v, hne, hw, hu, hv⟩ => ⟨u, hu, hne, v, hw, hv⟩⟩

/-! ## Productions -/

/-- **The paths of a production are exact** if those of the rules are. -/
theorem computes_of_sound {clean : Prop} (hp : p.All (Production.Sound g.size clean)) :
    g.Computes rule p := by
  induction hp with
  | @terminal kind =>
    intro budget _
    rw [Production.paths]
    cases budget with
    | zero => exact .pure ⟨fun w => by simp, Path.ordered_singleton []⟩
    | succ budget => exact .pure ⟨fun w => by simp, Path.ordered_singleton [kind]⟩
  | @nonterminal r here =>
    intro budget hserves
    rw [Production.paths]
    split
    · next hzero =>
      subst hzero
      exact .pure ⟨fun w => by simp, Path.ordered_singleton []⟩
    · next hbudget =>
      have hmem : r ∈ (Production.nonterminal r).leading g.isNullable := by
        simp [Production.leading]
      exact (hserves r here budget (Nat.pos_of_ne_zero hbudget) (.inr ⟨rfl, hmem⟩)).mono
        fun paths hpaths =>
          ⟨fun w => by rw [hpaths.mem_iff, opens_nonterminal_iff here], hpaths.ordered⟩
  | @decision number key kind alternatives here inside ih =>
    intro budget hserves
    rw [Production.leading, alternativesLeading_eq] at hserves
    -- Every alternative comes first in the production.
    have halternative : ∀ sequence ∈ alternatives, ∀ b ≤ budget,
        g.Yields (sequencePaths rule sequence b) (g.IsPathSet b sequence) := by
      intro sequence hmem b hb
      refine yields_sequencePaths (ih sequence hmem) ?_
      rcases Nat.lt_or_eq_of_le hb with hlt | rfl
      · exact hserves.smaller hlt
      · exact hserves.mono fun r hr => List.mem_flatMap.mpr ⟨sequence, hmem, hr⟩
    have hbody : ∀ b ≤ budget,
        g.Yields (bodyPaths rule alternatives b) (g.IsPathSet b (bodyOf alternatives)) := by
      intro b hb
      rw [bodyPaths_eq]
      cases alternatives with
      | nil => exact .pure ⟨fun w => by simp [bodyOf], Path.ordered_singleton []⟩
      | cons body _ => exact halternative body List.mem_cons_self b hb
    rw [Production.paths.eq_def]
    dsimp only
    cases budget with
    | zero => exact .pure ⟨fun w => by simp, Path.ordered_singleton []⟩
    | succ budget =>
    rw [if_neg (Nat.succ_ne_zero budget)]
    cases kind with
    | option =>
      refine (hbody _ (Nat.le_refl _)).bind fun paths hpaths =>
        .pure ⟨fun w => ?_, Path.ordered_sorted _⟩
      rw [Path.mem_sorted, List.mem_append, hpaths.mem_iff, List.mem_singleton, opens_option_iff,
        or_comm]
    | many =>
      refine (yields_repetition number key hbody).bind fun paths hpaths =>
        .pure ⟨fun w => ?_, Path.ordered_sorted _⟩
      rw [Path.mem_sorted, hpaths.mem_iff]
    | atLeastOne =>
      refine (hbody _ (Nat.le_refl _)).bind fun firsts hfirsts =>
        (Yields.mapM fun first _ => yields_join fun _ =>
          yields_repetition number key fun b hb => hbody b (by omega)).bind fun parts hparts =>
            .pure ⟨fun w => ?_, Path.ordered_sorted _⟩
      rw [Path.mem_sorted, mem_flatten_of_forall₂ hparts, opens_atLeastOne_iff]
      simp only [hfirsts.mem_iff]
      constructor
      · rintro ⟨u, hu, v, hw, hv⟩
        exact ⟨u, v, hw, hu, hv⟩
      · rintro ⟨u, v, hw, hu, hv⟩
        exact ⟨u, hu, v, hw, hv⟩
    | alternation =>
      rw [alternativePaths_eq]
      refine (Yields.mapM fun sequence hmem =>
        (halternative sequence hmem _ (Nat.le_refl _)).mono fun _ hpaths => hpaths.mem_iff).bind
          fun parts hparts => .pure ⟨fun w => ?_, Path.ordered_sorted _⟩
      rw [Path.mem_sorted, mem_flatten_of_forall₂ hparts, opens_alternation_iff]

/-! ## Rules -/

/-- Knowing one more path set that is right. -/
theorem Knows.cons {memo : PathMemo} {r : RuleId} {paths : List Path} (h : g.Knows memo)
    (hpaths : g.IsPathSet budget (g.rule r) paths) : g.Knows (((r, budget), paths) :: memo) := by
  intro r' b paths' hlookup
  rw [List.lookup_cons] at hlookup
  split at hlookup
  · next heq =>
    cases beq_iff_eq.mp heq
    exact Option.some.inj hlookup ▸ hpaths
  · exact h r' b paths' hlookup

theorem knows_nil (g : Grammar) : g.Knows [] := nofun

/-- The paths of a rule, remembered, given those of the rules in its sequence. -/
def expandRule (g : Grammar) (rule : RuleId → Nat → PathM (List Path)) (r : RuleId)
    (budget : Nat) : PathM (List Path) := do
  match (← get).lookup (r, budget) with
  | some paths => return paths
  | none =>
    let paths ← sequencePaths rule (g.rule r) budget
    modify (((r, budget), paths) :: ·)
    return paths

theorem rulePaths_succ (g : Grammar) (depth : Nat) (r : RuleId) (budget : Nat) :
    g.rulePaths (depth + 1) r budget = g.expandRule (g.rulePaths depth) r budget := rfl

theorem expandRule_of_known {memo : PathMemo} {r : RuleId} {paths : List Path}
    (h : memo.lookup (r, budget) = some paths) :
    g.expandRule rule r budget memo = some (paths, memo) := by
  simp [expandRule, bind, StateT.bind, get, getThe, MonadStateOf.get, StateT.get, pure, h,
    StateT.pure]

theorem expandRule_of_new {memo memo' : PathMemo} {r : RuleId} {paths : List Path}
    (h : memo.lookup (r, budget) = none)
    (hpaths : sequencePaths rule (g.rule r) budget memo = some (paths, memo')) :
    g.expandRule rule r budget memo = some (paths, ((r, budget), paths) :: memo') := by
  simp [expandRule, bind, StateT.bind, get, getThe, MonadStateOf.get, StateT.get, pure, h, hpaths,
    StateT.pure, modify, modifyGet, MonadStateOf.modifyGet, StateT.modifyGet]

/-- The paths of a rule are exact if those of the rules in its sequence are. -/
theorem yields_expandRule {clean : Prop} (hg : g.Sound clean) {r : RuleId}
    (hserves : g.Serves rule budget (sequenceLeading g.isNullable (g.rule r))) :
    g.Yields (g.expandRule rule r budget) (g.IsPathSet budget (g.rule r)) := by
  have hpaths := yields_sequencePaths (fun p hp => computes_of_sound (hg.rule r p hp)) hserves
  intro memo hmemo
  cases hlookup : memo.lookup (r, budget) with
  | some paths =>
    exact ⟨paths, memo, expandRule_of_known hlookup, hmemo, hmemo r budget paths hlookup⟩
  | none =>
    obtain ⟨paths, memo', hcomputed, hmemo', hset⟩ := hpaths memo hmemo
    exact ⟨paths, _, expandRule_of_new hlookup hcomputed, hmemo'.cons hset, hset⟩

/--
How many expansions can be nested within a budget from a rule of the given rank on: between two
tokens fewer than there are rules, since they descend in rank.
-/
def expansions (g : Grammar) (budget rank : Nat) : Nat := (budget - 1) * g.size + rank + 1

theorem expansions_le {b rank : Nat} (hb : 0 < b) (hlt : b < budget) (hrank : rank < g.size) :
    g.expansions b rank ≤ (budget - 1) * g.size := by
  have hmul : (b - 1 + 1) * g.size ≤ (budget - 1) * g.size :=
    Nat.mul_le_mul_right _ (by omega)
  rw [Nat.succ_mul] at hmul
  unfold expansions
  omega

theorem expansions_le_pathDepth {b rank : Nat} (hb : 0 < b) (hle : b ≤ budget)
    (hrank : rank < g.size) : g.expansions b rank ≤ g.pathDepth budget := by
  have hmul : (b - 1 + 1) * g.size ≤ budget * g.size := Nat.mul_le_mul_right _ (by omega)
  rw [Nat.succ_mul] at hmul
  unfold expansions pathDepth
  omega

/-- **What a rule asks for takes fewer expansions**: the budget is smaller, or the rank is. -/
theorem serves_of_expansions {rank : RuleId → Nat}
    (hrank : ∀ r < g.size, rank r < g.size ∧ ∀ r', g.Leads r r' → rank r' < rank r) {depth : Nat}
    {r : RuleId} (hr : r < g.size) (hdepth : g.expansions budget (rank r) ≤ depth + 1)
    (h : ∀ r' < g.size, ∀ b, b < budget ∨ b = budget ∧ g.Leads r r' →
      g.expansions b (rank r') ≤ depth → g.Yields (rule r' b) (g.IsPathSet b (g.rule r'))) :
    g.Serves rule budget (sequenceLeading g.isNullable (g.rule r)) := by
  intro r' hr' b hb hask
  rcases hask with hlt | ⟨rfl, hmem⟩
  · refine h r' hr' b (.inl hlt) ?_
    have hle := expansions_le hb hlt (hrank r' hr').1
    unfold expansions at hdepth
    omega
  · have hleads : g.Leads r r' :=
      List.mem_filter.mpr ⟨List.mem_range.mpr hr', List.contains_iff_mem.mpr hmem⟩
    refine h r' hr' b (.inr ⟨rfl, hleads⟩) ?_
    have hlt := (hrank r hr).2 r' hleads
    unfold expansions at hdepth ⊢
    omega

/-- **The paths of a rule are computed exactly** if that many expansions may be nested. -/
theorem yields_rulePaths {clean : Prop} (hg : g.Sound clean) {rank : RuleId → Nat}
    (hrank : ∀ r < g.size, rank r < g.size ∧ ∀ r', g.Leads r r' → rank r' < rank r) {depth : Nat}
    {r : RuleId} (hr : r < g.size) (hdepth : g.expansions budget (rank r) ≤ depth) :
    g.Yields (g.rulePaths depth r budget) (g.IsPathSet budget (g.rule r)) := by
  induction depth generalizing r budget with
  | zero => exact absurd hdepth (Nat.not_succ_le_zero _)
  | succ depth ih =>
    rw [rulePaths_succ]
    exact yields_expandRule hg
      (serves_of_expansions hrank hr hdepth fun r' hr' b _ hless => ih hr' hless)

/-- **The paths of a sequence are computed exactly.** -/
theorem yields_paths {clean : Prop} (hg : g.Sound clean) (hleft : g.leftRecursion = [])
    (hps : SoundSequence g.size clean ps) :
    g.Yields (g.paths ps budget) (g.IsPathSet budget ps) := by
  obtain ⟨rank, hrank⟩ := exists_rank hleft
  refine yields_sequencePaths (fun p hp => computes_of_sound (hps p hp)) fun r hr b hb hask => ?_
  exact yields_rulePaths hg hrank hr (expansions_le_pathDepth hb (by omega) (hrank r hr).1)

end Grammar

end Palette
