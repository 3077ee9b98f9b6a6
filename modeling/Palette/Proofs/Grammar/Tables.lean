import Palette.Proofs.Grammar.Analysis
import Palette.Proofs.Grammar.PathSets
import Palette.Proofs.Grammar.Prediction

/-!
# Lookahead tables

In a grammar without left recursion, the tables of all decisions are computed within every budget,
and they hold exactly the paths of the alternatives.

The tables within two budgets fit together: those within the smaller one hold what is left of those
within the larger one when they are cut. So what can be told apart with less lookahead can be told
apart with more.

Main statements: `Grammar.exists_lookahead` and `Grammar.exists_deeper_lookahead`.
-/

namespace Palette

/-! ## Exact tables -/

namespace Grammar

variable {g : Grammar} {clean : Prop} {budget : Nat} {v : Vocabulary}

/-- The table holds the paths of the alternatives of the decision, or those that enter its body. -/
def IsTable (g : Grammar) (budget : Nat) (d : Decision) (table : DecisionTable) : Prop :=
  match d.kind with
  | .alternation => List.Forall₂ (g.IsPathSet budget) d.alternatives table
  | .option | .many | .atLeastOne =>
    ∃ enter, g.IsPathSet budget (bodyOf d.alternatives) enter ∧
      table = [enter.filter (!·.isEmpty)]

/-- **The table of a decision is computed exactly.** -/
theorem yields_decisionTable (hg : g.Sound clean) (hleft : g.leftRecursion = []) {d : Decision}
    (hd : d.production.All (Production.Sound g.size clean)) :
    g.Yields (g.decisionTable budget d) (g.IsTable budget d) := by
  obtain ⟨number, key, kind, alternatives⟩ := d
  have hsound := SoundSequence.singleton hd
  cases kind with
  | alternation =>
    exact .mapM fun sequence hmem => yields_paths hg hleft (hsound.inside sequence hmem)
  | option | many | atLeastOne =>
    exact (yields_paths hg hleft hsound.body).bind fun enter henter => .pure ⟨enter, henter, rfl⟩

/-- Puts the tables of decisions in their places, one after the other. -/
def insertTables (tables : Lookahead) (ds : List Decision) (ts : List DecisionTable) :
    Lookahead :=
  (ds.zip ts).foldl (fun l e => l.insert e.1.key e.2) tables

/-- What is ambiguous in the tables of decisions. -/
def tableIssues (g : Grammar) (v : Vocabulary) (ds : List Decision) (ts : List DecisionTable) :
    List Issue :=
  (ds.zip ts).flatMap fun e =>
    if e.1.kind == .alternation then ambiguities g v e.1.key e.2 else []

theorem yields_lookaheadFrom (hg : g.Sound clean) (hleft : g.leftRecursion = [])
    {ds : List Decision} (hds : ∀ d ∈ ds, d.production.All (Production.Sound g.size clean))
    (tables : Lookahead) :
    g.Yields (g.lookaheadFrom v budget ds tables) fun result =>
      ∃ ts, List.Forall₂ (g.IsTable budget) ds ts ∧
        result = (insertTables tables ds ts, g.tableIssues v ds ts) := by
  induction ds generalizing tables with
  | nil => exact .pure ⟨[], .nil, rfl⟩
  | cons d ds ih =>
    obtain ⟨hd, hds⟩ := List.forall_mem_cons.mp hds
    refine (yields_decisionTable hg hleft hd).bind fun table htable =>
      (ih hds (tables.insert d.key table)).bind fun result hresult => ?_
    obtain ⟨ts, hts, rfl⟩ := hresult
    exact .pure ⟨table :: ts, .cons htable hts, rfl⟩

/-- **The tables of a grammar are computed exactly**, within every budget. -/
theorem exists_lookahead (hg : g.Sound clean) (hleft : g.leftRecursion = []) (v : Vocabulary)
    (budget : Nat) : ∃ ts, List.Forall₂ (g.IsTable budget) g.decisions ts ∧
      g.lookahead? v budget
        = some (insertTables [] g.decisions ts, g.tableIssues v g.decisions ts) := by
  have hyields : g.Yields (g.lookaheadFrom v budget g.decisions []) _ :=
    yields_lookaheadFrom hg hleft hg.decisions []
  obtain ⟨result, memo, hrun, -, ts, hts, rfl⟩ := hyields [] (knows_nil g)
  refine ⟨ts, hts, ?_⟩
  rw [lookahead?, StateT.run, hrun]
  rfl

end Grammar

/-! ## Counterparts -/

/-- What is found on the right has its counterpart on the left. -/
theorem exists_left_of_forall₂ {α β : Type} {R : α → β → Prop} {l : List α} {l' : List β}
    (h : List.Forall₂ R l l') {i : Nat} {b : β} (hb : l'[i]? = some b) :
    ∃ a, l[i]? = some a ∧ R a b := by
  induction h generalizing i with
  | nil => cases hb
  | @cons a b' _ _ hab _ ih =>
    cases i with
    | zero =>
      cases hb
      exact ⟨a, rfl, hab⟩
    | succ i => exact ih hb

/-- What is found on the left has its counterpart on the right. -/
theorem exists_right_of_forall₂ {α β : Type} {R : α → β → Prop} {l : List α} {l' : List β}
    (h : List.Forall₂ R l l') {i : Nat} {a : α} (ha : l[i]? = some a) :
    ∃ b, l'[i]? = some b ∧ R a b :=
  exists_left_of_forall₂ h.flip ha

/-! ## The table of an alternation -/

namespace Grammar

variable {g : Grammar} {budget : Nat} {e : Decision} {table : DecisionTable}

/-- In the table of an alternation, each alternative has the paths that it opens with. -/
theorem IsTable.exists_paths (h : g.IsTable budget e table) (hkind : e.kind = .alternation)
    (i : Fin e.alternatives.length) : ∃ paths, table[i.val]? = some paths ∧
      ∀ path, path ∈ paths ↔ g.Opens budget (e.alternatives.get i) path := by
  rw [IsTable, hkind] at h
  obtain ⟨paths, hpaths, hset⟩ :=
    exists_right_of_forall₂ h (List.getElem?_eq_getElem i.isLt)
  exact ⟨paths, hpaths, hset.mem_iff⟩

theorem IsTable.lt_of_getElem? (h : g.IsTable budget e table) (hkind : e.kind = .alternation)
    {i : Nat} {paths : List Path} (hpaths : table[i]? = some paths) :
    i < e.alternatives.length := by
  rw [IsTable, hkind] at h
  exact h.length_eq ▸ (List.getElem?_eq_some_iff.mp hpaths).1

end Grammar

/-! ## Tables that fit together -/

/-- The short paths are what is left of the long ones when they are cut at the budget. -/
structure Truncates (budget : Nat) (short long : List Path) : Prop where
  take_mem : ∀ w ∈ long, w.take budget ∈ short
  exists_longer : ∀ w ∈ short, ∃ w' ∈ long, w'.take budget = w
  ordered : Path.Ordered short
  ordered_long : Path.Ordered long

namespace Truncates

variable {budget : Nat} {short long : List Path}

theorem length_le (h : Truncates budget short long) : ∀ w ∈ short, w.length ≤ budget := by
  intro w hw
  obtain ⟨w', -, rfl⟩ := h.exists_longer w hw
  exact List.length_take_le _ _

/-- Only the empty path is left empty by a budget. -/
theorem nil_mem_iff (h : Truncates budget short long) (hbudget : 0 < budget) :
    [] ∈ short ↔ [] ∈ long := by
  constructor
  · intro hmem
    obtain ⟨w, hw, hnil⟩ := h.exists_longer [] hmem
    rcases List.take_eq_nil_iff.mp hnil with hzero | rfl
    · omega
    · exact hw
  · exact fun hmem => List.take_nil ▸ h.take_mem [] hmem

/-- The paths that are not empty fit together as all of them do. -/
theorem filter (h : Truncates budget short long) (hbudget : 0 < budget) :
    Truncates budget (short.filter (!·.isEmpty)) (long.filter (!·.isEmpty)) := by
  have hcut (w : Path) : (w.take budget).isEmpty = w.isEmpty := by
    cases w with
    | nil => rw [List.take_nil]
    | cons a w =>
      cases budget with
      | zero => exact absurd hbudget (Nat.lt_irrefl 0)
      | succ budget => rfl
  refine ⟨fun w hw => ?_, fun w hw => ?_, h.ordered.filter _, h.ordered_long.filter _⟩
  · obtain ⟨hw, hcons⟩ := List.mem_filter.mp hw
    exact List.mem_filter.mpr ⟨h.take_mem w hw, by rwa [hcut]⟩
  · obtain ⟨hw, hcons⟩ := List.mem_filter.mp hw
    obtain ⟨w', hw', rfl⟩ := h.exists_longer w hw
    exact ⟨w', List.mem_filter.mpr ⟨hw', by rwa [hcut] at hcons⟩, rfl⟩

end Truncates

namespace Grammar

variable {g : Grammar} {b b' : Nat}

theorem IsPathSet.truncates (hg : g.Sound True) (hleft : g.leftRecursion = [])
    {ps : List Production} (hps : SoundSequence g.size True ps) (hb : b ≤ b')
    {short long : List Path} (h : g.IsPathSet b ps short) (h' : g.IsPathSet b' ps long) :
    Truncates b short long where
  take_mem w hw := (h.mem_iff _).mpr (((h'.mem_iff w).mp hw).take hb)
  exists_longer w hw := by
    obtain ⟨w', hw', hcut⟩ := ((h.mem_iff w).mp hw).exists_longer hg hleft hps hb
    exact ⟨w', (h'.mem_iff w').mpr hw', hcut⟩
  ordered := h.ordered
  ordered_long := h'.ordered

/-- The tables of a decision within two budgets fit together. -/
theorem IsTable.truncates (hg : g.Sound True) (hleft : g.leftRecursion = []) {d : Decision}
    (hd : d.production.All (Production.Sound g.size True)) (hpos : 0 < b) (hb : b ≤ b')
    {short long : DecisionTable} (h : g.IsTable b d short) (h' : g.IsTable b' d long) :
    List.Forall₂ (Truncates b) short long := by
  obtain ⟨number, key, kind, alternatives⟩ := d
  have hsound := SoundSequence.singleton hd
  cases kind with
  | alternation =>
    have hinside := hsound.inside
    clear hd hsound
    simp only [IsTable] at h h'
    induction h generalizing long with
    | nil =>
      cases h'
      exact .nil
    | cons hpaths _ ih =>
      cases h' with
      | cons hpaths' hrest' =>
        obtain ⟨hsequence, hinside⟩ := List.forall_mem_cons.mp hinside
        exact .cons (hpaths.truncates hg hleft hsequence hb hpaths') (ih hrest' hinside)
  | option | many | atLeastOne =>
    obtain ⟨enter, henter, rfl⟩ := h
    obtain ⟨enter', henter', rfl⟩ := h'
    exact .cons ((henter.truncates hg hleft hsound.body hb henter').filter hpos) .nil

end Grammar

/-! ## What can be told apart -/

theorem Vocabulary.pathsOverlap_take {v : Vocabulary} {p q : Path}
    (h : v.pathsOverlap p q = true) (budget : Nat) :
    v.pathsOverlap (p.take budget) (q.take budget) = true := by
  induction p generalizing q budget with
  | nil =>
    cases q with
    | nil => simp [pathsOverlap]
    | cons b q => simp [pathsOverlap] at h
  | cons a p ih =>
    cases q with
    | nil => simp [pathsOverlap] at h
    | cons b q =>
      rw [pathsOverlap, Bool.and_eq_true] at h
      cases budget with
      | zero => rfl
      | succ budget =>
        rw [List.take_succ_cons, List.take_succ_cons, pathsOverlap, h.1, ih h.2 budget]
        rfl

/-- **More lookahead tells apart what less of it does.** -/
theorem Unambiguous.deeper {v : Vocabulary} {budget : Nat} {short long : DecisionTable}
    (h : Unambiguous v short) (hcut : List.Forall₂ (Truncates budget) short long) :
    Unambiguous v long := by
  intro i j left right hlt hi hj p hp q hq
  obtain ⟨left', hi', hleft⟩ := exists_left_of_forall₂ hcut hi
  obtain ⟨right', hj', hright⟩ := exists_left_of_forall₂ hcut hj
  refine Bool.eq_false_iff.mpr fun hoverlap => ?_
  have hfalse := h i j left' right' hlt hi' hj' _ (hleft.take_mem p hp) _ (hright.take_mem q hq)
  rw [Vocabulary.pathsOverlap_take hoverlap budget] at hfalse
  cases hfalse

/-- The tables fit together, and the short one tells its alternatives apart. -/
structure Deeper (v : Vocabulary) (budget : Nat) (short long : DecisionTable) : Prop where
  truncates : List.Forall₂ (Truncates budget) short long
  unambiguous : Unambiguous v short

namespace Grammar

variable {g : Grammar} {v : Vocabulary} {b b' : Nat}

/-- The table of a decision about which no issue was found tells its alternatives apart. -/
theorem IsTable.unambiguous {d : Decision} {table : DecisionTable} (h : g.IsTable b d table)
    (hissues : (if d.kind == .alternation then ambiguities g v d.key table else []) = []) :
    Unambiguous v table := by
  obtain ⟨number, key, kind, alternatives⟩ := d
  cases kind with
  | alternation => exact ambiguities_eq_nil_iff.mp hissues
  | option | many | atLeastOne =>
    obtain ⟨enter, -, rfl⟩ := h
    exact unambiguous_singleton v _

/-- Tables in which nothing is ambiguous, and those of the same decisions with more lookahead. -/
theorem deeper_tables (hg : g.Sound True) (hleft : g.leftRecursion = []) (hpos : 0 < b)
    (hb : b ≤ b') {ds : List Decision}
    (hds : ∀ d ∈ ds, d.production.All (Production.Sound g.size True)) {ts ts' : List DecisionTable}
    (hts : List.Forall₂ (g.IsTable b) ds ts) (hts' : List.Forall₂ (g.IsTable b') ds ts')
    (hissues : g.tableIssues v ds ts = []) {l l' : Lookahead}
    (hl : ∀ key, Option.Rel (Deeper v b) (l.table? key) (l'.table? key)) :
    g.tableIssues v ds ts' = [] ∧ ∀ key, Option.Rel (Deeper v b)
      ((insertTables l ds ts).table? key) ((insertTables l' ds ts').table? key) := by
  induction hts generalizing ts' l l' with
  | nil => exact ⟨rfl, hl⟩
  | @cons d table ds ts htable _ ih =>
    cases hts' with
    | @cons _ table' _ ts' htable' hrest' =>
      obtain ⟨hd, hds⟩ := List.forall_mem_cons.mp hds
      simp only [tableIssues, List.zip_cons_cons, List.flatMap_cons, List.append_eq_nil_iff]
        at hissues ⊢
      have hdeeper : Deeper v b table table' :=
        ⟨htable.truncates hg hleft hd hpos hb htable', htable.unambiguous hissues.1⟩
      have hinsert : ∀ key, Option.Rel (Deeper v b) ((l.insert d.key table).table? key)
          ((l'.insert d.key table').table? key) := by
        intro key
        by_cases hkey : key = d.key
        · rw [hkey, Lookahead.table?_insert_self, Lookahead.table?_insert_self]
          exact .some hdeeper
        · rw [Lookahead.table?_insert_of_ne hkey, Lookahead.table?_insert_of_ne hkey]
          exact hl key
      obtain ⟨hnone, hrel⟩ := ih hds hrest' hissues.2 hinsert
      refine ⟨⟨?_, hnone⟩, hrel⟩
      split
      · exact ambiguities_eq_nil_iff.mpr (hdeeper.unambiguous.deeper hdeeper.truncates)
      · rfl

/-- **A grammar that needs no more lookahead than this can be given more of it**, and then its
tables fit together with those it had. -/
theorem exists_deeper_lookahead (hg : g.Sound True) (hleft : g.leftRecursion = []) (hpos : 0 < b)
    (hb : b ≤ b') {tables : Lookahead} (h : g.lookahead? v b = some (tables, [])) :
    ∃ tables', g.lookahead? v b' = some (tables', []) ∧
      ∀ key, Option.Rel (Deeper v b) (tables.table? key) (tables'.table? key) := by
  obtain ⟨ts, hts, hlookahead⟩ := exists_lookahead hg hleft v b
  obtain ⟨ts', hts', hlookahead'⟩ := exists_lookahead hg hleft v b'
  rw [h, Option.some.injEq, Prod.mk.injEq] at hlookahead
  obtain ⟨rfl, hissues⟩ := hlookahead
  have hnil : ∀ key, Option.Rel (Deeper v b) (Lookahead.table? [] key)
      (Lookahead.table? [] key) := fun _ => .none
  obtain ⟨hnone, hrel⟩ := deeper_tables hg hleft hpos hb hg.decisions hts hts' hissues.symm hnil
  exact ⟨_, hnone ▸ hlookahead', hrel⟩

end Grammar

end Palette
