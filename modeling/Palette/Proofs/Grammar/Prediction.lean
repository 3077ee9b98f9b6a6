import Palette.Grammar.Recognizer

/-!
# What is predicted

A prediction goes for an alternative with a path that the next token starts, and, only where there
is none, for one that may be empty. Where alternatives can be told apart by their paths this
settles it: no two of them start with the same token, nor may both be empty.

Main statements: `RecognizerInput.predict_eq_some`, `RecognizerInput.predict_eq_none` and
`ambiguities_eq_nil_iff`.
-/

namespace Palette

/-! ## The candidates -/

namespace RecognizerInput

variable (input : RecognizerInput) (s : Recognition)

/-- Whether the next token fits the first kind of the path. -/
def Starts (path : Path) : Prop := ∃ kind rest, path = kind :: rest ∧ input.fitsAhead s 1 kind

/-- Whether the alternative has a path that the next token starts. -/
def Starting (table : DecisionTable) (index : Nat) : Prop :=
  ∃ paths, table[index]? = some paths ∧ ∃ path ∈ paths, input.Starts s path

/-- Whether the alternative has the empty path. -/
def MayBeEmpty (table : DecisionTable) (index : Nat) : Prop :=
  ∃ paths, table[index]? = some paths ∧ [] ∈ paths

variable {input s} {table table' : DecisionTable} {index : Nat}

theorem matched_pos_iff {path : Path} : 0 < input.matched s path ↔ input.Starts s path := by
  cases path with
  | nil => simp [matched, matchedFrom, Starts]
  | cons kind rest =>
    simp only [matched, matchedFrom, Starts, List.cons.injEq]
    constructor
    · intro h
      split at h
      · next hfits => exact ⟨kind, rest, ⟨rfl, rfl⟩, hfits⟩
      · exact absurd h (Nat.lt_irrefl 0)
    · rintro ⟨_, _, ⟨rfl, rfl⟩, hfits⟩
      rw [if_pos hfits]
      exact Nat.succ_pos _

theorem isSome_deeper (best : Option (Nat × Nat)) (candidate : Nat × Nat) :
    (deeper best candidate).isSome := by
  unfold deeper
  split
  · rfl
  · split <;> rfl

theorem deeper_eq_some {best : Option (Nat × Nat)} {candidate b : Nat × Nat}
    (h : deeper best candidate = some b) : best = some b ∨ b = candidate := by
  unfold deeper at h
  split at h
  · exact .inr (Option.some.inj h).symm
  · split at h
    · exact .inl h
    · exact .inr (Option.some.inj h).symm

/-- What becomes of the candidates: a path counts as empty, or for how deep it fits, or not at
all. -/
theorem consider_cases (c : Candidates) (path : Path) :
    (path = [] ∧ input.consider s index c path = { c with empty := c.empty.or (some index) }) ∨
    (input.Starts s path ∧ ∃ depth,
      input.consider s index c path = { c with full := deeper c.full (index, depth) } ∨
      input.consider s index c path = { c with partly := deeper c.partly (index, depth) }) ∨
    (path ≠ [] ∧ ¬input.Starts s path ∧ input.consider s index c path = c) := by
  simp only [consider]
  split
  · next hnil => exact .inl ⟨List.isEmpty_iff.mp hnil, by simp⟩
  next hcons =>
  have hne : path ≠ [] := fun h => hcons (List.isEmpty_iff.mpr h)
  split
  · next hdepth =>
    have hpos : 0 < input.matched s path := hdepth ▸ List.length_pos_iff.mpr hne
    exact .inr (.inl ⟨matched_pos_iff.mp hpos, _, .inl rfl⟩)
  · split
    · next hpos => exact .inr (.inl ⟨matched_pos_iff.mp hpos, _, .inr rfl⟩)
    · next hzero => exact .inr (.inr ⟨hne, fun h => hzero (matched_pos_iff.mpr h), rfl⟩)

/-- The candidates are among the paths seen so far, each with the index of its alternative, and
there is one of each sort that was seen. -/
structure Candidates.Cover (input : RecognizerInput) (s : Recognition) (c : Candidates)
    (seen : List (Nat × Path)) : Prop where
  starts : ∀ b, c.full = some b ∨ c.partly = some b →
    ∃ path, (b.1, path) ∈ seen ∧ input.Starts s path
  starting : ∀ e ∈ seen, input.Starts s e.2 → c.full.isSome ∨ c.partly.isSome
  empty : ∀ i, c.empty = some i → (i, []) ∈ seen
  mayBeEmpty : ∀ i, (i, []) ∈ seen → c.empty.isSome

namespace Candidates.Cover

variable {c c' : Candidates} {seen : List (Nat × Path)}

theorem starts_append (h : c.Cover input s seen) (more : List (Nat × Path)) (b : Nat × Nat)
    (hb : c.full = some b ∨ c.partly = some b) :
    ∃ path, (b.1, path) ∈ seen ++ more ∧ input.Starts s path := by
  obtain ⟨path, hpath, hstart⟩ := h.starts b hb
  exact ⟨path, List.mem_append_left _ hpath, hstart⟩

/-- A path that the next token starts may become a candidate of either sort. -/
theorem start (h : c.Cover input s seen) {path : Path} (hpath : input.Starts s path)
    (hstarts : ∀ b, c'.full = some b ∨ c'.partly = some b →
      (c.full = some b ∨ c.partly = some b) ∨ b.1 = index)
    (hsome : c'.full.isSome ∨ c'.partly.isSome) (hempty : c'.empty = c.empty) :
    c'.Cover input s (seen ++ [(index, path)]) where
  starts b hb := by
    rcases hstarts b hb with hb | rfl
    · exact h.starts_append _ b hb
    · exact ⟨path, List.mem_append_right _ List.mem_cons_self, hpath⟩
  starting _ _ _ := hsome
  empty i hi := List.mem_append_left _ (h.empty i (hempty ▸ hi))
  mayBeEmpty i hi := by
    rw [hempty]
    rcases List.mem_append.mp hi with hi | hi
    · exact h.mayBeEmpty i hi
    · obtain ⟨_, _, hcons, -⟩ := hpath
      cases List.mem_singleton.mp hi
      cases hcons

theorem consider (h : c.Cover input s seen) (index : Nat) (path : Path) :
    (input.consider s index c path).Cover input s (seen ++ [(index, path)]) := by
  rcases @consider_cases input s index c path with
    ⟨rfl, hc⟩ | ⟨hstart, depth, hc | hc⟩ | ⟨hne, hnot, hc⟩ <;> rw [hc]
  · refine ⟨h.starts_append _, fun e he hstart => ?_, fun i hi => ?_, fun i _ => ?_⟩
    · rcases List.mem_append.mp he with he | he
      · exact h.starting e he hstart
      · obtain ⟨_, _, hcons, -⟩ := hstart
        cases List.mem_singleton.mp he
        cases hcons
    · rcases Option.or_eq_some_iff.mp hi with hi | ⟨-, hi⟩
      · exact List.mem_append_left _ (h.empty i hi)
      · cases hi
        exact List.mem_append_right _ List.mem_cons_self
    · simp
  · refine h.start hstart (fun b hb => ?_) (.inl (isSome_deeper _ _)) rfl
    rcases hb with hb | hb
    · exact (deeper_eq_some hb).imp .inl (congrArg Prod.fst)
    · exact .inl (.inr hb)
  · refine h.start hstart (fun b hb => ?_) (.inr (isSome_deeper _ _)) rfl
    rcases hb with hb | hb
    · exact .inl (.inl hb)
    · exact (deeper_eq_some hb).imp .inr (congrArg Prod.fst)
  · refine ⟨h.starts_append _, fun e he hstart => ?_, fun i hi => ?_, fun i hi => ?_⟩
    · rcases List.mem_append.mp he with he | he
      · exact h.starting e he hstart
      · cases List.mem_singleton.mp he
        exact absurd hstart hnot
    · exact List.mem_append_left _ (h.empty i hi)
    · rcases List.mem_append.mp hi with hi | hi
      · exact h.mayBeEmpty i hi
      · cases List.mem_singleton.mp hi
        exact absurd rfl hne

theorem foldl (h : c.Cover input s seen) (more : List (Nat × Path)) :
    (more.foldl (fun c e => input.consider s e.1 c e.2) c).Cover input s (seen ++ more) := by
  induction more generalizing c seen with
  | nil => rwa [List.foldl_nil, List.append_nil]
  | cons e more ih =>
    have hstep := ih (h.consider e.1 e.2)
    rwa [List.append_assoc] at hstep

end Candidates.Cover

/-- All paths of the table, each with the index of its alternative. -/
def entries (table : DecisionTable) : List (Nat × Path) :=
  table.zipIdx.flatMap fun (paths, index) => paths.map (index, ·)

theorem mem_entries {i : Nat} {path : Path} :
    (i, path) ∈ entries table ↔ ∃ paths, table[i]? = some paths ∧ path ∈ paths := by
  simp only [entries, List.mem_flatMap, List.mem_map, Prod.exists, Prod.mk.injEq]
  constructor
  · rintro ⟨paths, j, hmem, _, hpath, rfl, rfl⟩
    exact ⟨paths, List.mem_zipIdx_iff_getElem?.mp hmem, hpath⟩
  · rintro ⟨paths, hget, hpath⟩
    exact ⟨paths, i, List.mem_zipIdx_iff_getElem?.mpr hget, path, hpath, rfl, rfl⟩

/-! ## The prediction -/

/-- The candidates once all paths of the table were considered. -/
def candidates (input : RecognizerInput) (s : Recognition) (table : DecisionTable) : Candidates :=
  (entries table).foldl (fun c e => input.consider s e.1 c e.2) ⟨none, none, none⟩

/-- What is predicted is the candidate that comes first. -/
theorem predict_eq_candidates (input : RecognizerInput) (s : Recognition) (table : DecisionTable) :
    input.predict s table = (((input.candidates s table).full.or
      (input.candidates s table).partly).map (·.1)).or (input.candidates s table).empty := by
  simp only [predict, candidates, entries, List.foldl_flatMap, List.foldl_map, Option.orElse_eq_or,
    Option.orElse_eq_orElse]

/-- What is predicted comes of candidates that cover the table. -/
theorem exists_cover (input : RecognizerInput) (s : Recognition) (table : DecisionTable) :
    ∃ c : Candidates, c.Cover input s (entries table) ∧
      input.predict s table = ((c.full.or c.partly).map (·.1)).or c.empty := by
  have hstart : Candidates.Cover input s ⟨none, none, none⟩ [] :=
    ⟨nofun, nofun, nofun, nofun⟩
  exact ⟨_, hstart.foldl (entries table), predict_eq_candidates input s table⟩

/-- **What is predicted** starts with the next token, or may be empty where nothing does. -/
theorem predict_eq_some (h : input.predict s table = some index) :
    input.Starting s table index ∨
      (∀ i, ¬input.Starting s table i) ∧ MayBeEmpty table index := by
  obtain ⟨c, hcover, hpredict⟩ := exists_cover input s table
  rw [hpredict, Option.or_eq_some_iff, Option.map_eq_some_iff] at h
  rcases h with ⟨b, hb, rfl⟩ | ⟨hnone, hempty⟩
  · have hbest : c.full = some b ∨ c.partly = some b :=
      (Option.or_eq_some_iff.mp hb).imp_right And.right
    obtain ⟨path, hmem, hstart⟩ := hcover.starts b hbest
    obtain ⟨paths, hget, hpath⟩ := mem_entries.mp hmem
    exact .inl ⟨paths, hget, path, hpath, hstart⟩
  · refine .inr ⟨?_, mem_entries.mp (hcover.empty index hempty)⟩
    rintro i ⟨paths, hget, path, hpath, hstart⟩
    rw [Option.map_eq_none_iff, Option.or_eq_none_iff] at hnone
    simpa [hnone] using hcover.starting _ (mem_entries.mpr ⟨paths, hget, hpath⟩) hstart

/-- **Nothing is predicted** where nothing starts with the next token and nothing may be empty. -/
theorem predict_eq_none (h : input.predict s table = none) (i : Nat) :
    ¬input.Starting s table i ∧ ¬MayBeEmpty table i := by
  obtain ⟨c, hcover, hpredict⟩ := exists_cover input s table
  rw [hpredict, Option.or_eq_none_iff, Option.map_eq_none_iff, Option.or_eq_none_iff] at h
  constructor
  · rintro ⟨paths, hget, path, hpath, hstart⟩
    simpa [h] using hcover.starting _ (mem_entries.mpr ⟨paths, hget, hpath⟩) hstart
  · rintro ⟨paths, hget, hmem⟩
    simpa [h] using hcover.mayBeEmpty i (mem_entries.mpr ⟨paths, hget, hmem⟩)

/-- Tables of which the same alternatives are ready for the next token, never more than one of
them, predict the same. -/
theorem predict_eq_of_iff (hstarting : ∀ i, input.Starting s table i ↔ input.Starting s table' i)
    (hempty : ∀ i, MayBeEmpty table i ↔ MayBeEmpty table' i)
    (hstart : ∀ i j, input.Starting s table i → input.Starting s table j → i = j)
    (hnil : ∀ i j, MayBeEmpty table i → MayBeEmpty table j → i = j) :
    input.predict s table' = input.predict s table := by
  cases hleft : input.predict s table with
  | none =>
    cases hright : input.predict s table' with
    | none => rfl
    | some j =>
      obtain ⟨hno, hfull⟩ := predict_eq_none hleft j
      rcases predict_eq_some hright with hj | ⟨-, hj⟩
      · exact absurd ((hstarting j).mpr hj) hno
      · exact absurd ((hempty j).mpr hj) hfull
  | some i =>
    cases hright : input.predict s table' with
    | none =>
      obtain ⟨hno, hfull⟩ := predict_eq_none hright i
      rcases predict_eq_some hleft with hi | ⟨-, hi⟩
      · exact absurd ((hstarting i).mp hi) hno
      · exact absurd ((hempty i).mp hi) hfull
    | some j =>
      rcases predict_eq_some hleft with hi | ⟨hnone, hi⟩ <;>
        rcases predict_eq_some hright with hj | ⟨hnone', hj⟩
      · rw [hstart i j hi ((hstarting j).mpr hj)]
      · exact absurd ((hstarting i).mp hi) (hnone' i)
      · exact absurd ((hstarting j).mpr hj) (hnone j)
      · rw [hnil i j hi ((hempty j).mpr hj)]

end RecognizerInput

/-! ## Alternatives that can be told apart -/

/-- No path of one alternative can be the same tokens as a path of another. -/
def Unambiguous (v : Vocabulary) (table : DecisionTable) : Prop :=
  ∀ (i j : Nat) (left right : List Path), i < j → table[i]? = some left →
    table[j]? = some right → ∀ p ∈ left, ∀ q ∈ right, v.pathsOverlap p q = false

theorem mem_indexedPairs {α : Type} {items : List α} {i j : Nat} {a b : α} :
    ((i, a), (j, b)) ∈ indexedPairs items ↔
      items[i]? = some a ∧ items[j]? = some b ∧ i < j := by
  simp only [indexedPairs, List.mem_flatMap, List.mem_map, List.mem_filter, Prod.exists,
    Prod.mk.injEq, decide_eq_true_eq, List.mem_zipIdx_iff_getElem?]
  constructor
  · rintro ⟨_, _, ⟨_, _, hi, rfl, rfl⟩, _, _, ⟨⟨_, _, hj, rfl, rfl⟩, hlt⟩, ⟨rfl, rfl⟩, rfl, rfl⟩
    exact ⟨hi, hj, hlt⟩
  · rintro ⟨hi, hj, hlt⟩
    exact ⟨i, a, ⟨a, i, hi, rfl, rfl⟩, j, b, ⟨⟨b, j, hj, rfl, rfl⟩, hlt⟩, ⟨rfl, rfl⟩, rfl, rfl⟩

/-- **No ambiguity is reported** just when alternatives can be told apart. -/
theorem ambiguities_eq_nil_iff {g : Grammar} {v : Vocabulary} {key : DecisionKey}
    {table : DecisionTable} : ambiguities g v key table = [] ↔ Unambiguous v table := by
  simp only [ambiguities, List.filterMap_eq_nil_iff, Option.map_eq_none_iff, Prod.forall,
    mem_indexedPairs, Vocabulary.sharedPath?, List.find?_eq_none, List.any_eq_true, not_exists,
    not_and, Bool.not_eq_true]
  exact ⟨fun h i j left right hlt hi hj => h i left j right ⟨hi, hj, hlt⟩,
    fun h i left j right ⟨hi, hj, hlt⟩ => h i j left right hlt hi hj⟩

theorem unambiguous_singleton (v : Vocabulary) (paths : List Path) : Unambiguous v [paths] := by
  intro i j left right hlt _ hj
  have hlen := (List.getElem?_eq_some_iff.mp hj).1
  rw [List.length_singleton] at hlen
  omega

/-- No two alternatives that can be told apart may be empty. -/
theorem RecognizerInput.mayBeEmpty_unique {v : Vocabulary} {table : DecisionTable}
    (h : Unambiguous v table) {i j : Nat} (hi : MayBeEmpty table i) (hj : MayBeEmpty table j) :
    i = j := by
  have hlt {i j : Nat} (hi : MayBeEmpty table i) (hj : MayBeEmpty table j) : ¬i < j := by
    intro hlt
    obtain ⟨left, hleft, hp⟩ := hi
    obtain ⟨right, hright, hq⟩ := hj
    have hapart := h i j left right hlt hleft hright _ hp _ hq
    simp [Vocabulary.pathsOverlap] at hapart
  have hij := hlt hi hj
  have hji := hlt hj hi
  omega

/-! ## Tables of single kinds -/

/-- The table of alternatives that are told apart by the kind of the next token. -/
def oneToken (kinds : List (List TokenKind)) : DecisionTable := kinds.map (·.map ([·]))

theorem unambiguous_oneToken {v : Vocabulary} {kinds : List (List TokenKind)}
    (h : kinds.Pairwise fun left right => ∀ a ∈ left, ∀ b ∈ right, v.overlaps a b = false) :
    Unambiguous v (oneToken kinds) := by
  intro i j left right hlt hi hj p hp q hq
  simp only [oneToken, List.getElem?_map, Option.map_eq_some_iff] at hi hj
  obtain ⟨left, hi, rfl⟩ := hi
  obtain ⟨right, hj, rfl⟩ := hj
  obtain ⟨a, ha, rfl⟩ := List.mem_map.mp hp
  obtain ⟨b, hb, rfl⟩ := List.mem_map.mp hq
  obtain ⟨hi', rfl⟩ := List.getElem?_eq_some_iff.mp hi
  obtain ⟨hj', rfl⟩ := List.getElem?_eq_some_iff.mp hj
  have hapart := List.pairwise_iff_getElem.mp h i j hi' hj' hlt a ha b hb
  rw [Vocabulary.pathsOverlap, hapart, Bool.false_and]

namespace RecognizerInput

variable {input : RecognizerInput} {s : Recognition} {kinds : List (List TokenKind)}

theorem starting_oneToken {i : Nat} :
    input.Starting s (oneToken kinds) i ↔
      i < kinds.length ∧ ∃ kind ∈ kinds.getD i [], input.fitsAhead s 1 kind = true := by
  simp only [Starting, Starts, oneToken, List.getElem?_map, Option.map_eq_some_iff,
    List.getD_eq_getElem?_getD]
  constructor
  · rintro ⟨_, ⟨l, hget, rfl⟩, _, hmem, kind, rest, rfl, hfits⟩
    obtain ⟨kind', hkind, hpath⟩ := List.mem_map.mp hmem
    cases hpath
    exact ⟨(List.getElem?_eq_some_iff.mp hget).1, kind, by rwa [hget], hfits⟩
  · rintro ⟨hi, kind, hkind, hfits⟩
    rw [List.getElem?_eq_getElem hi] at hkind ⊢
    exact ⟨_, ⟨_, rfl, rfl⟩, [kind], List.mem_map_of_mem hkind, kind, [], rfl, hfits⟩

/-- **The alternative whose kinds the next token fits** is predicted where there is only one. -/
theorem predict_oneToken {i : Nat} (hi : i < kinds.length) (h : ∀ j < kinds.length,
      (∃ kind ∈ kinds.getD j [], input.fitsAhead s 1 kind = true) ↔ j = i) :
    input.predict s (oneToken kinds) = some i := by
  have hstart : input.Starting s (oneToken kinds) i :=
    starting_oneToken.mpr ⟨hi, (h i hi).mpr rfl⟩
  cases hpredict : input.predict s (oneToken kinds) with
  | none => exact absurd hstart (predict_eq_none hpredict i).1
  | some j =>
    rcases predict_eq_some hpredict with hj | ⟨hnone, -⟩
    · obtain ⟨hlt, hfits⟩ := starting_oneToken.mp hj
      rw [(h j hlt).mp hfits]
    · exact absurd hstart (hnone i)

/-- A body is entered if the next token fits its first kind. -/
theorem enters_oneToken (kind : TokenKind) :
    input.enters s (oneToken [[kind]]) = input.fitsAhead s 1 kind := by
  cases hfits : input.fitsAhead s 1 kind <;>
    simp [enters, predict, oneToken, consider, matched, matchedFrom, deeper, hfits]

end RecognizerInput

end Palette
