import Palette.Proofs.Grammar.Depth
import Palette.Proofs.Grammar.Listing
import Palette.Proofs.Grammar.Reordering

/-!
# Paths that fit as a whole

Where the tokens ahead fit some path as a whole, the longest such path decides, so what is chosen is
told by how long the paths of each alternative are that fit. Two alternatives cannot both have one
of the greatest length: the same tokens, or the end of the input, would fit both paths, so the paths
would overlap, and no ambiguity was reported. With the alternatives in another order the grammar
passes the analysis too, each alternative has the same paths, and the same one is selected.

Main statement: `GrammarDef.fullMatch_decides`.
-/

namespace Palette

/-! ## Fitting as a whole -/

namespace RecognizerInput

variable (input : RecognizerInput) (s : Recognition)

/-- Whether the tokens ahead fit the whole path. -/
def FitsPath (path : Path) : Prop :=
  ∀ (i : Nat) (kind : TokenKind), path[i]? = some kind → input.fitsAhead s (i + 1) kind = true

/-- Whether the alternative has a path of this length that the tokens ahead fit as a whole; the
empty path does not count. -/
def FullMatch (table : DecisionTable) (index length : Nat) : Prop :=
  ∃ paths, table[index]? = some paths ∧
    ∃ path ∈ paths, path ≠ [] ∧ path.length = length ∧ input.FitsPath s path

variable {input s} {table : DecisionTable} {index i j n m number : Nat} {path : Path}

theorem matchedFrom_eq_length_iff : input.matchedFrom s number path = path.length ↔
    ∀ (i : Nat) (kind : TokenKind), path[i]? = some kind →
      input.fitsAhead s (number + i) kind = true := by
  induction path generalizing number with
  | nil => simp [matchedFrom]
  | cons kind rest ih =>
    rw [matchedFrom, List.length_cons]
    constructor
    · intro h
      split at h
      · next hfits =>
        rintro (_ | i) kind' hkind
        · obtain rfl := Option.some.inj hkind
          exact hfits
        · have hrest := ih.mp (Nat.succ.inj h) i kind' hkind
          rwa [Nat.add_assoc, Nat.add_comm 1 i] at hrest
      · exact absurd h.symm (Nat.succ_ne_zero _)
    · intro h
      have hfits : input.fitsAhead s number kind = true := h 0 kind rfl
      rw [if_pos hfits]
      refine congrArg Nat.succ (ih.mpr fun i kind' hkind => ?_)
      rw [Nat.add_assoc, Nat.add_comm 1 i]
      exact h (i + 1) kind' hkind

/-- A path fits as a whole if as many tokens match as it is long. -/
theorem matched_eq_length_iff : input.matched s path = path.length ↔ input.FitsPath s path := by
  rw [matched, matchedFrom_eq_length_iff, FitsPath]
  simp only [Nat.add_comm 1]

/-! ## The longest one decides -/

theorem le_of_deeper {best : Option (Nat × Nat)} {candidate b : Nat × Nat}
    (h : deeper best candidate = some b) :
    candidate.2 ≤ b.2 ∧ ∀ b', best = some b' → b'.2 ≤ b.2 := by
  unfold deeper at h
  split at h
  · cases h
    exact ⟨Nat.le_refl _, nofun⟩
  · split at h
    · next hle =>
      cases h
      exact ⟨hle, fun b' hb' => Option.some.inj hb' ▸ Nat.le_refl _⟩
    · next hlt =>
      cases h
      exact ⟨Nat.le_refl _, fun b' hb' => Option.some.inj hb' ▸ Nat.le_of_not_le hlt⟩

/-- Only a path that fits as a whole, and is not empty, can become the candidate that counts as
such. -/
theorem full_consider (c : Candidates) (path : Path) :
    (path ≠ [] ∧ input.FitsPath s path ∧
      (input.consider s index c path).full = deeper c.full (index, path.length)) ∨
    ((path = [] ∨ ¬input.FitsPath s path) ∧ (input.consider s index c path).full = c.full) := by
  simp only [consider]
  split
  · next hnil => exact .inr ⟨.inl (List.isEmpty_iff.mp hnil), rfl⟩
  next hcons =>
  have hne : path ≠ [] := fun h => hcons (List.isEmpty_iff.mpr h)
  split
  · next hdepth => exact .inl ⟨hne, matched_eq_length_iff.mp hdepth, by rw [hdepth]⟩
  · next hdepth =>
    have hnot : ¬input.FitsPath s path := fun h => hdepth (matched_eq_length_iff.mpr h)
    split <;> exact .inr ⟨.inr hnot, rfl⟩

/-- The candidate that fits as a whole is among the paths seen so far, and none of these that fits
as a whole is longer. -/
structure Candidates.Longest (input : RecognizerInput) (s : Recognition) (c : Candidates)
    (seen : List (Nat × Path)) : Prop where
  mem : ∀ b, c.full = some b →
    ∃ path, (b.1, path) ∈ seen ∧ path ≠ [] ∧ path.length = b.2 ∧ input.FitsPath s path
  longest : ∀ e ∈ seen, e.2 ≠ [] → input.FitsPath s e.2 →
    ∃ b, c.full = some b ∧ e.2.length ≤ b.2

namespace Candidates.Longest

variable {c : Candidates} {seen : List (Nat × Path)}

theorem consider (h : c.Longest input s seen) (index : Nat) (path : Path) :
    (input.consider s index c path).Longest input s (seen ++ [(index, path)]) := by
  have hbefore : ∀ b, c.full = some b → ∃ path', (b.1, path') ∈ seen ++ [(index, path)] ∧
      path' ≠ [] ∧ path'.length = b.2 ∧ input.FitsPath s path' := by
    intro b hb
    obtain ⟨path', hmem, hrest⟩ := h.mem b hb
    exact ⟨path', List.mem_append_left _ hmem, hrest⟩
  rcases @full_consider input s index c path with ⟨hne, hfits, hfull⟩ | ⟨hnot, hfull⟩
  · have hsome := isSome_deeper c.full (index, path.length)
    obtain ⟨b, hb⟩ := Option.isSome_iff_exists.mp hsome
    obtain ⟨hle, hlonger⟩ := le_of_deeper hb
    refine ⟨fun b' hb' => ?_, fun e he hne' hfits' => ⟨b, hfull.trans hb, ?_⟩⟩
    · rcases deeper_eq_some (hfull ▸ hb') with hold | rfl
      · exact hbefore b' hold
      · exact ⟨path, List.mem_append_right _ List.mem_cons_self, hne, rfl, hfits⟩
    · rcases List.mem_append.mp he with he | he
      · obtain ⟨b', hb', hle'⟩ := h.longest e he hne' hfits'
        exact Nat.le_trans hle' (hlonger b' hb')
      · obtain rfl := List.mem_singleton.mp he
        exact hle
  · refine ⟨fun b hb => hbefore b (hfull ▸ hb), fun e he hne hfits => ?_⟩
    rcases List.mem_append.mp he with he | he
    · rw [hfull]
      exact h.longest e he hne hfits
    · obtain rfl := List.mem_singleton.mp he
      exact absurd hfits (hnot.resolve_left hne)

theorem foldl (h : c.Longest input s seen) (more : List (Nat × Path)) :
    (more.foldl (fun c e => input.consider s e.1 c e.2) c).Longest input s (seen ++ more) := by
  induction more generalizing c seen with
  | nil => rwa [List.foldl_nil, List.append_nil]
  | cons e more ih =>
    have hstep := ih (h.consider e.1 e.2)
    rwa [List.append_assoc] at hstep

end Candidates.Longest

/-- **Where some path fits as a whole, an alternative with a longest one of these is predicted.** -/
theorem exists_longest_fullMatch (h : input.FullMatch s table i n) :
    ∃ j m, input.FullMatch s table j m ∧ (∀ j' m', input.FullMatch s table j' m' → m' ≤ m) ∧
      input.predict s table = some j := by
  have hstart : Candidates.Longest input s ⟨none, none, none⟩ [] := ⟨nofun, nofun⟩
  have hlongest : (input.candidates s table).Longest input s (entries table) :=
    hstart.foldl (entries table)
  have hall {j' m' : Nat} (h : input.FullMatch s table j' m') :
      ∃ b, (input.candidates s table).full = some b ∧ m' ≤ b.2 := by
    obtain ⟨paths, hpaths, path, hmem, hne, rfl, hfits⟩ := h
    exact hlongest.longest _ (mem_entries.mpr ⟨paths, hpaths, hmem⟩) hne hfits
  obtain ⟨b, hb, -⟩ := hall h
  obtain ⟨path, hmem, hne, hlen, hfits⟩ := hlongest.mem b hb
  obtain ⟨paths, hpaths, hmem⟩ := mem_entries.mp hmem
  refine ⟨b.1, b.2, ⟨paths, hpaths, path, hmem, hne, hlen, hfits⟩, fun j' m' h' => ?_, ?_⟩
  · obtain ⟨b', hb', hle⟩ := hall h'
    obtain rfl := Option.some.inj (hb.symm.trans hb')
    exact hle
  · rw [predict_eq_candidates, hb]
    rfl

/-- An alternative is predicted if no other has a path that fits as a whole and is as long. -/
theorem predict_eq_of_fullMatch (h : input.FullMatch s table i n)
    (hbest : ∀ j m, n ≤ m → input.FullMatch s table j m → j = i) :
    input.predict s table = some i := by
  obtain ⟨j, m, hmatch, hmax, hpredict⟩ := exists_longest_fullMatch h
  rw [hpredict, hbest j m (hmax i n h) hmatch]

end RecognizerInput

/-! ## No two alternatives fit alike -/

/-- Paths of one length overlap if their kinds do, one by one. -/
theorem Vocabulary.pathsOverlap_of_forall {v : Vocabulary} {p q : Path}
    (hlen : p.length = q.length)
    (h : ∀ (i : Nat) (a b : TokenKind), p[i]? = some a → q[i]? = some b → v.overlaps a b = true) :
    v.pathsOverlap p q = true := by
  induction p generalizing q with
  | nil =>
    obtain rfl := List.eq_nil_of_length_eq_zero hlen.symm
    rfl
  | cons a p ih =>
    cases q with
    | nil => cases hlen
    | cons b q =>
      rw [pathsOverlap, h 0 a b rfl rfl, ih (Nat.succ.inj hlen) fun i => h (i + 1)]
      rfl

namespace RecognizerInput

variable {input : RecognizerInput} {s : Recognition} {table : DecisionTable} {i j n : Nat}

/-- **No two alternatives have paths of one length that fit as a whole** if they can be told
apart. -/
theorem fullMatch_unique (hvoc : input.vocabulary.Consistent) (htokens : input.Matchable)
    (hapart : Unambiguous input.vocabulary table) (hi : input.FullMatch s table i n)
    (hj : input.FullMatch s table j n) : i = j := by
  have hlt {i j : Nat} (hi : input.FullMatch s table i n) (hj : input.FullMatch s table j n) :
      ¬i < j := by
    intro hlt
    obtain ⟨left, hleft, p, hp, -, hplen, hpfits⟩ := hi
    obtain ⟨right, hright, q, hq, -, hqlen, hqfits⟩ := hj
    have hoverlap : input.vocabulary.pathsOverlap p q = true :=
      Vocabulary.pathsOverlap_of_forall (hplen.trans hqlen.symm) fun k a b ha hb =>
        hvoc.overlaps_of_fits (htokens.kind_ahead s (k + 1)) (hpfits k a ha) (hqfits k b hb)
    rw [hapart i j left right hlt hleft hright p hp q hq] at hoverlap
    cases hoverlap
  have hij := hlt hi hj
  have hji := hlt hj hi
  omega

end RecognizerInput

/-! ## Choices -/

namespace RecognizerInput

variable {input input' : RecognizerInput} {s : Recognition} {table : DecisionTable} {i n : Nat}

/-- Of all paths that fit as a whole, those of one alternative only have the greatest length. -/
structure Prevails (input : RecognizerInput) (s : Recognition) (table : DecisionTable)
    (i n : Nat) : Prop where
  fits : input.FullMatch s table i n
  longest : ∀ j m, input.FullMatch s table j m → m ≤ n
  only : ∀ j, input.FullMatch s table j n → j = i

/-- A choice that is made at the site goes on with the body that has the index, whatever bodies
there are. -/
structure Selects (input : RecognizerInput) (s : Recognition) (site : Site) {count : Nat}
    (i : Fin count) : Prop where
  run_choose : ∀ {τ α β : Type} (find : String → Option RuleId)
    (invoke : RuleId → Recognition → Outcome τ) (steps : Nat) (bodies : Fin count → Body τ β)
    (blank : β) (next : Option β → Body τ α),
    (Body.choose site count bodies blank next).run input find invoke steps s
      = ((bodies i).run input find invoke steps s).andThen fun v t =>
        (next v).run input find invoke steps t

theorem Selects.of_predict {site : Site} {count : Nat} {i : Fin count}
    (htable : input.table? s site = some table) (h : input.predict s table = some i.val) :
    input.Selects s site i where
  run_choose find invoke steps bodies blank next := by
    simp only [Body.run, htable, h, Option.bind_some, i.isLt, dif_pos, Fin.eta]

/-- The input with other tables. -/
def withTables (input : RecognizerInput) (tables : Lookahead) : RecognizerInput :=
  { input with lookahead := tables }

theorem Prevails.predict_eq (h : input.Prevails s table i n) : input.predict s table = some i :=
  predict_eq_of_fullMatch h.fits fun j m hle hmatch =>
    h.only j (Nat.le_antisymm (h.longest j m hmatch) hle ▸ hmatch)

/-- **Some alternative prevails** where a path fits as a whole and alternatives can be told
apart. -/
theorem exists_prevails (hvoc : input.vocabulary.Consistent) (htokens : input.Matchable)
    (hapart : Unambiguous input.vocabulary table) (h : input.FullMatch s table i n) :
    ∃ j m, input.Prevails s table j m := by
  obtain ⟨j, m, hmatch, hmax, -⟩ := exists_longest_fullMatch h
  exact ⟨j, m, hmatch, hmax, fun j' hj' => fullMatch_unique hvoc htokens hapart hj' hmatch⟩

end RecognizerInput

namespace Grammar

variable {g g' : Grammar} {k : Nat} {e e' : Decision} {table table' : DecisionTable}
  {input input' : RecognizerInput} {s : Recognition}

/-- In the table of an alternation, the paths that fit are those that the alternatives open with. -/
theorem IsTable.fullMatch_iff (h : g.IsTable k e table) (hkind : e.kind = .alternation)
    (i : Fin e.alternatives.length) {n : Nat} : input.FullMatch s table i n ↔
      ∃ path, g.Opens k (e.alternatives.get i) path ∧ path ≠ [] ∧ path.length = n ∧
        input.FitsPath s path := by
  obtain ⟨paths, hpaths, hmem⟩ := h.exists_paths hkind i
  constructor
  · rintro ⟨paths', hpaths', path, hpath, hrest⟩
    obtain rfl := Option.some.inj (hpaths.symm.trans hpaths')
    exact ⟨path, (hmem path).mp hpath, hrest⟩
  · rintro ⟨path, hopens, hrest⟩
    exact ⟨paths, hpaths, path, (hmem path).mpr hopens, hrest⟩

theorem IsTable.lt_of_fullMatch (h : g.IsTable k e table) (hkind : e.kind = .alternation)
    {i n : Nat} (hmatch : input.FullMatch s table i n) : i < e.alternatives.length :=
  h.lt_of_getElem? hkind hmatch.choose_spec.1

/-- An alternative prevails in its place, whatever the order. -/
theorem Reorders.prevails (hg : g.Reorders g') {order} (he : e.Reorders e' order)
    (hkind : e.kind = .alternation) (h : g.IsTable k e table) (h' : g'.IsTable k e' table')
    (hfits : ∀ number kind, input'.fitsAhead s number kind = input.fitsAhead s number kind)
    {i : Fin e.alternatives.length} {n : Nat} (hprevails : input.Prevails s table i n) :
    input'.Prevails s table' (order.symm i) n := by
  have hkind' : e'.kind = .alternation := he.kind.trans hkind
  have hiff (j : Fin e'.alternatives.length) (m : Nat) :
      input'.FullMatch s table' j m ↔ input.FullMatch s table (order j) m := by
    rw [h'.fullMatch_iff hkind', h.fullMatch_iff hkind]
    simp only [hg.opens_iff (he.inside j), RecognizerInput.FitsPath, hfits]
  refine ⟨?_, fun j m hmatch => ?_, fun j hmatch => ?_⟩
  · rw [hiff, Equiv.apply_symm_apply]
    exact hprevails.fits
  · exact hprevails.longest _ m ((hiff ⟨j, h'.lt_of_fullMatch hkind' hmatch⟩ m).mp hmatch)
  · have hj := h'.lt_of_fullMatch hkind' hmatch
    have horder : order ⟨j, hj⟩ = i := Fin.ext (hprevails.only _ ((hiff ⟨j, hj⟩ n).mp hmatch))
    rw [← horder, Equiv.symm_apply_apply]

end Grammar

namespace GrammarDef

variable {τ : Type} [Inhabited τ] {d : GrammarDef τ} {config : ParserConfig} {p : Parser τ}

theorem Accepted.maxLookahead_pos (h : d.Accepted config p) : 0 < p.config.maxLookahead := by
  rw [h.configured]
  exact Nat.le_max_right config.maxLookahead 1

/-- At each recorded decision, what the recognizer reads is the exact table. -/
theorem Accepted.exists_table_ahead (h : d.Accepted config p) {e : Decision}
    (he : e ∈ (recordRules d.rules).1.decisions) (text : String) (tokens : List Token)
    {s : Recognition} (hs : s.stack.head? = some e.key.rule) :
    ∃ table, (p.input text tokens).table? s e.key.site = some table ∧
      (recordRules d.rules).1.IsTable p.config.maxLookahead e table ∧
      Unambiguous p.vocabulary table := by
  obtain ⟨table, htable, hrest⟩ := h.exists_exact_table he
  refine ⟨table, ?_, hrest⟩
  rw [RecognizerInput.table?, hs]
  exact htable

theorem Accepted.matchable_input (h : d.Accepted config p) (text : String) {tokens : List Token}
    (htokens : ∀ t ∈ tokens, t.kind ∈ d.vocabulary.matchable) :
    (p.input text tokens).Matchable := by
  intro t ht
  rw [Parser.input, h.vocabulary]
  exact htokens t (List.mem_toArray.mp ht)

/--
**The order of alternatives does not decide a full match.**

At an alternation of an accepted grammar, whatever tokens are ahead: if they fit some path as a
whole, then one alternative only has such paths of the greatest length, and it is the one that is
selected.

In any other order the grammar passes the analysis with the same depth of lookahead, and by the
tables computed for it the same alternative is selected, in the place that it has there.
-/
theorem fullMatch_decides (hvoc : d.vocabulary.Consistent) (hp : d.analyse config = .ok p)
    {e : Decision} (he : e ∈ (recordRules d.rules).1.decisions) (hkind : e.kind = .alternation)
    (text : String) {tokens : List Token}
    (htokens : ∀ t ∈ tokens, t.kind ∈ d.vocabulary.matchable) {s : Recognition}
    (hs : s.stack.head? = some e.key.rule) :
    ∃ table, (p.input text tokens).table? s e.key.site = some table ∧
      ∀ j m, (p.input text tokens).FullMatch s table j m →
        ∃ (i : Fin e.alternatives.length) (n : Nat),
          (p.input text tokens).Prevails s table i n ∧
          (p.input text tokens).Selects s e.key.site i ∧
          ∀ {g' : Grammar}, (recordRules d.rules).1.Reorders g' →
            g'.leftRecursion = [] ∧
            ∃ tables, g'.lookahead? d.vocabulary p.config.maxLookahead = some (tables, []) ∧
              ∀ {e' : Decision} {order}, e' ∈ g'.decisions → e.Reorders e' order →
                ((p.input text tokens).withTables tables).Selects s e.key.site (order.symm i) := by
  have hacc := accepted_of_analyse hp
  obtain ⟨table, htable, hexact, hapart⟩ := hacc.exists_table_ahead he text tokens hs
  refine ⟨table, htable, fun j m hmatch => ?_⟩
  have hvoc' : p.vocabulary.Consistent := hacc.vocabulary ▸ hvoc
  obtain ⟨i, n, hprevails⟩ :=
    RecognizerInput.exists_prevails hvoc' (hacc.matchable_input text htokens) hapart hmatch
  have hi := hexact.lt_of_fullMatch hkind hprevails.fits
  refine ⟨⟨i, hi⟩, n, hprevails, .of_predict htable hprevails.predict_eq, ?_⟩
  -- The analysis of the grammar in the other order.
  intro g' hreorders
  have hsound := Grammar.sound_recordRules d.rules
  have hkeys := nodup_keys_recordRules hacc.recorded
  have hleft' := hreorders.leftRecursion_eq.trans hacc.leftRecursion
  obtain ⟨tables, hlookahead⟩ :=
    hreorders.exists_lookahead hsound hacc.leftRecursion hkeys hacc.lookahead
  refine ⟨hleft', tables, hlookahead, fun {e' order} he' hdecision => ?_⟩
  obtain ⟨table', htable', hexact', -⟩ := Grammar.exists_exact_table (hreorders.sound hsound) hleft'
    (hreorders.nodup_keys hkeys) hlookahead he'
  have hfound : ((p.input text tokens).withTables tables).table? s e.key.site = some table' := by
    rw [RecognizerInput.table?, hs, ← htable', hdecision.key]
    rfl
  -- Which tokens are ahead does not depend on the tables.
  have hfits (number : Nat) (kind : TokenKind) :
      ((p.input text tokens).withTables tables).fitsAhead s number kind
        = (p.input text tokens).fitsAhead s number kind := rfl
  have hprevails' :=
    hreorders.prevails hdecision hkind hexact hexact' hfits (i := ⟨i, hi⟩) hprevails
  exact .of_predict hfound hprevails'.predict_eq

end GrammarDef

/-! ## Forks -/

namespace GrammarDef

/-- The choice of forks. -/
def fork : Decision :=
  ⟨0, ⟨0, 0⟩, .alternation, [[.terminal ⟨0⟩, .terminal ⟨0⟩], [.terminal ⟨0⟩, .terminal ⟨1⟩]]⟩

/-- What the parser of forks reads of the text "ab". -/
def forksInput : RecognizerInput :=
  forksParser.input "ab" (Vocabulary.letters.tokenize "ab").tokens

/-- At the first token, in the first rule. -/
def atFork : Recognition := { Recognition.start with stack := [0] }

/-- Forks, with the alternatives the other way round. -/
def swappedForks : GrammarDef Unit :=
  { vocabulary := Vocabulary.letters
    rules := [
      ⟨"fork", Body.oneOf 0 () [
        do
          let _ ← Body.take ⟨0⟩
          let _ ← Body.take ⟨1⟩
          return (),
        do
          let _ ← Body.take ⟨0⟩
          let _ ← Body.take ⟨0⟩
          return ()]⟩] }

/-- The choice of swapped forks. -/
def swappedFork : Decision :=
  ⟨0, ⟨0, 0⟩, .alternation, [[.terminal ⟨0⟩, .terminal ⟨1⟩], [.terminal ⟨0⟩, .terminal ⟨0⟩]]⟩

theorem reorders_fork : fork.Reorders swappedFork (Fin.revPerm (n := 2)) where
  key := rfl
  kind := rfl
  kept hkind := absurd rfl hkind
  inside
    | ⟨0, _⟩ => .cons .terminal (.cons .terminal .nil)
    | ⟨1, _⟩ => .cons .terminal (.cons .terminal .nil)

theorem reorders_forks :
    (recordRules forks.rules).1.Reorders (recordRules swappedForks.rules).1 where
  names := rfl
  rules := .cons (.cons reorders_fork.production .nil) .nil
  decisions := ⟨[swappedFork], .cons ⟨_, reorders_fork⟩ .nil, .refl _⟩

/-- In front of the letters a and b the second alternative of forks prevails. With the alternatives
the other way round, it is the first one. -/
theorem fullMatch_decides_forks :
    ∃ table, forksInput.table? atFork 0 = some table ∧
      forksInput.Prevails atFork table 1 2 ∧ forksInput.Selects atFork 0 (1 : Fin 2) ∧
      ∃ tables, (recordRules swappedForks.rules).1.lookahead? Vocabulary.letters 2
          = some (tables, []) ∧
        (forksInput.withTables tables).Selects atFork 0 (0 : Fin 2) := by
  obtain ⟨table, htable, hdecides⟩ := fullMatch_decides Vocabulary.consistent_letters analyse_forks
    (e := fork) List.mem_cons_self rfl "ab"
    (fun t ht => Vocabulary.consistent_letters.kind_mem_matchable ht) (s := atFork) rfl
  cases htable
  have hpredict : forksInput.predict atFork [[[⟨0⟩, ⟨0⟩]], [[⟨0⟩, ⟨1⟩]]] = some 1 := by cbv
  have hfits : forksInput.matched atFork [⟨0⟩, ⟨1⟩] = 2 := by cbv
  have hmatch : forksInput.FullMatch atFork [[[⟨0⟩, ⟨0⟩]], [[⟨0⟩, ⟨1⟩]]] 1 2 :=
    ⟨_, rfl, _, List.mem_cons_self, List.cons_ne_nil _ _, rfl,
      RecognizerInput.matched_eq_length_iff.mp hfits⟩
  obtain ⟨i, n, hprevails, hselects, hswapped⟩ := hdecides 1 2 hmatch
  obtain rfl : i = (1 : Fin 2) :=
    Fin.ext (Option.some.inj (hprevails.predict_eq.symm.trans hpredict))
  obtain rfl : n = 2 := by
    obtain ⟨paths, hpaths, path, hmem, -, hlen, -⟩ := hprevails.fits
    cases hpaths
    obtain rfl := List.mem_singleton.mp hmem
    exact hlen.symm
  obtain ⟨-, tables, hlookahead, hswapped⟩ := hswapped reorders_forks
  exact ⟨_, rfl, hprevails, hselects, tables, hlookahead,
    hswapped List.mem_cons_self reorders_fork⟩

end GrammarDef

end Palette
