import Mathlib.Data.List.Induction
import Palette.Proofs.Collections.Memo

/-!
# Gets that overlap

A get looks its path up. If it finds nothing, a value is created, which may take any time and may
use the cache itself, and then the value is stored. Between the two steps, other gets come in, find
their values or store them, for the same path too, and the cache may be cleared. Each of these is
one step, and they come in any order.

Whatever the order, queue and trie stay in step. Storing a value for a path that holds none is the
only step that changes more than it clears, and it does to the cache what it does to the list that
the cache mirrors. So it need not be known how the path got or lost its value meanwhile.

Fetching is such a passage (`Drives.fetch`), where a value is created by whatever makes its way
through such steps.

Main statement: `Traffic.cache_inStep`.
-/

namespace Palette

variable {K V τ β γ : Type}

/-! ## Caches in step -/

/-- The queue lists the paths that hold values, once each and no more of them than there is room
for, and the trie has no levels but those that lead to them. -/
structure SearchCache.InStep (c : SearchCache K V) : Prop where
  distinct : c.order.toList.Nodup
  queued : ∀ path, path ∈ c.order.toList ↔ ∃ v, c.root.Holds path v
  bounded : c.size ≤ c.maxSize
  pruned : c.root.Pruned
  keyed : c.root.Keyed

/-- A cache that mirrors a list is in step. -/
theorem Mirrors.inStep [BEq K] [LawfulBEq K] {c : SearchCache K V} {m : Memo K V} (h : Mirrors c m)
    (hbounded : c.size ≤ c.maxSize) (hpruned : c.root.Pruned) (hkeyed : c.root.Keyed) :
    c.InStep where
  distinct := h.order ▸ h.distinct
  queued path := by
    have hlisted : path ∈ m.entries.map (·.1) ↔ ∃ v, m.lookup path = some v := by
      rw [← Option.ne_none_iff_exists', Memo.lookup, Ne, lookup_eq_none_iff_notMem, not_not]
    simp only [h.order, hlisted, Trie.holds_iff_lookup hkeyed, ← h.lookup, SearchCache.lookup]
  bounded := hbounded
  pruned := hpruned
  keyed := hkeyed

/-! ## Steps -/

/-- A cache with the gets that are under way. -/
structure Traffic (K V : Type) where
  cache : SearchCache K V
  /-- The paths for which values are being created. -/
  creating : List (List K)

/-- A step that someone makes. -/
inductive CacheStep (K V : Type) where
  /-- A get looks its path up. -/
  | arrive (path : List K)
  /-- The value is there that the get at a place among those under way has waited for. -/
  | created (place : Nat) (value : V)
  | clear

namespace Traffic

section

variable [BEq K]

/-- What comes of a step, with the value that is returned to the get that it ends. -/
def step (t : Traffic K V) : CacheStep K V → Traffic K V × Option V
  | .arrive path =>
    match t.cache.lookup path with
    | some value => (t, some value)
    | none => ({ t with creating := t.creating ++ [path] }, none)
  | .created place value =>
    match t.creating[place]? with
    | some path =>
      let (returned, cache) := t.cache.store path value
      ({ cache, creating := t.creating.eraseIdx place }, some returned)
    | none => (t, none)
  | .clear => ({ t with cache := t.cache.clear }, none)

/-- What comes of some steps. -/
def after (t : Traffic K V) (steps : List (CacheStep K V)) : Traffic K V :=
  steps.foldl (fun t s => (t.step s).1) t

/-- What comes of steps from a cache without values, where no get is under way. -/
def run (maxSize : Nat) (steps : List (CacheStep K V)) : Traffic K V :=
  after ⟨.empty maxSize, []⟩ steps

theorem after_append (t : Traffic K V) (steps more : List (CacheStep K V)) :
    t.after (steps ++ more) = (t.after steps).after more := List.foldl_append

/-- Whatever clearing and storing keep holds after all steps. -/
theorem run_induction {P : SearchCache K V → Prop} {maxSize : Nat} (first : P (.empty maxSize))
    (clear : ∀ c, P c → P c.clear) (store : ∀ c path value, P c → P (c.store path value).2)
    (steps : List (CacheStep K V)) : P (run maxSize steps).cache := by
  induction steps using List.reverseRecOn with
  | nil => exact first
  | append_singleton steps s ih =>
    rw [run, after_append, ← run]
    show P ((run maxSize steps).step s).1.cache
    unfold step
    cases s with
    | arrive path =>
      -- the get has its value or waits for one; the cache is the same
      dsimp only
      split <;> exact ih
    | created place value =>
      dsimp only
      split
      · exact store _ _ _ ih
      · exact ih
    | clear => exact clear _ ih

end

variable [BEq K] [LawfulBEq K] (maxSize : Nat) (steps : List (CacheStep K V))

/-- At any time the cache mirrors a list. -/
theorem exists_mirrors : ∃ m, Mirrors (run maxSize steps).cache m := by
  refine run_induction (P := fun c => ∃ m, Mirrors c m) ⟨_, .empty maxSize⟩ ?_ ?_ steps
  · rintro c ⟨m, h⟩
    exact ⟨_, h.clear⟩
  · rintro c path value ⟨m, h⟩
    cases hfound : c.lookup path with
    | some existing =>
      rw [SearchCache.store_of_lookup hfound]
      exact ⟨m, h⟩
    | none => exact ⟨_, (h.store hfound value).2⟩

/-- Whatever changes of tries keep holds of the trie of the cache. -/
theorem inherited {P : Trie K V → Prop} (hP : Trie.Inherited P) :
    P (run maxSize steps).cache.root := by
  refine run_induction (P := fun c => P c.root) hP.empty (fun _ _ => hP.empty) ?_ steps
  intro c path value h
  cases hfound : c.lookup path with
  | some existing => rwa [SearchCache.store_of_lookup hfound]
  | none =>
    rw [SearchCache.store_of_lookup_eq_none hfound, SearchCache.evict_eq]
    exact SearchCache.inherited_eraseAll hP _ (hP.insert h value path)

omit [LawfulBEq K] in
/-- There is never more than there is room for. -/
theorem size_le : (run maxSize steps).cache.size ≤ maxSize ∧
    (run maxSize steps).cache.maxSize = maxSize := by
  refine run_induction (P := fun c => c.size ≤ maxSize ∧ c.maxSize = maxSize) ⟨Nat.zero_le _, rfl⟩
    (fun c h => ⟨Nat.zero_le _, h.2⟩) ?_ steps
  rintro c path value ⟨hsize, rfl⟩
  cases hfound : c.lookup path with
  | some existing =>
    rw [SearchCache.store_of_lookup hfound]
    exact ⟨hsize, rfl⟩
  | none =>
    rw [SearchCache.store_of_lookup_eq_none hfound]
    exact ⟨SearchCache.size_evict _, rfl⟩

/-- **Queue and trie stay in step**, whoever makes which step, and in whatever order. A get whose
value is created after its path has got another one returns that one and changes nothing. -/
theorem cache_inStep :
    (run maxSize steps).cache.maxSize = maxSize ∧ (run maxSize steps).cache.InStep ∧
      ∀ place path existing value, (run maxSize steps).creating[place]? = some path →
        (run maxSize steps).cache.lookup path = some existing →
          (run maxSize steps).step (.created place value) =
            ({ cache := (run maxSize steps).cache,
               creating := (run maxSize steps).creating.eraseIdx place }, some existing) := by
  obtain ⟨m, hmirrors⟩ := exists_mirrors maxSize steps
  obtain ⟨hsize, hmax⟩ := size_le maxSize steps
  refine ⟨hmax, hmirrors.inStep (hmax.symm ▸ hsize) (inherited _ _ Trie.inherited_pruned)
    (inherited _ _ Trie.inherited_keyed), fun place path existing value hplace hfound => ?_⟩
  unfold step
  simp only [hplace, SearchCache.store_of_lookup hfound]

/-- Two gets create a value for the same path; the second one is done first. -/
theorem cache_inStep_twice :
    let t : Traffic Char Nat := run 1 [.arrive ['a'], .arrive ['a'], .arrive [], .created 1 7]
    t.creating[0]? = some ['a'] ∧ t.cache.lookup ['a'] = some 7 ∧ t.cache.InStep ∧
      t.step (.created 0 8) = ({ cache := t.cache, creating := [[]] }, some 7) :=
  ⟨rfl, rfl, (cache_inStep 1 _).2.1, (cache_inStep 1 _).2.2 0 ['a'] 7 8 rfl rfl⟩

end Traffic

/-! ## Fetching -/

/-- What the computation makes of a cache is what comes of some steps, which leave alone the gets
that are under way already. -/
def Drives [BEq K] (x : StateT (SearchCache K V) (StateM τ) β) : Prop :=
  ∀ c creating t, ∃ steps, Traffic.after ⟨c, creating⟩ steps = ⟨((x.run c).run t).1.2, creating⟩

namespace Drives

variable [BEq K] {x : StateT (SearchCache K V) (StateM τ) β}

theorem pure (b : β) : Drives (pure b : StateT (SearchCache K V) (StateM τ) β) :=
  fun _ _ _ => ⟨[], rfl⟩

theorem clear : Drives (modify SearchCache.clear : StateT (SearchCache K V) (StateM τ) PUnit) :=
  fun _ _ _ => ⟨[.clear], rfl⟩

theorem lift (y : StateM τ β) : Drives (StateT.lift y : StateT (SearchCache K V) (StateM τ) β) :=
  fun _ _ _ => ⟨[], rfl⟩

theorem bind (hx : Drives x) {f : β → StateT (SearchCache K V) (StateM τ) γ}
    (hf : ∀ b, Drives (f b)) : Drives (x >>= f) := by
  intro c creating t
  obtain ⟨steps, hsteps⟩ := hx c creating t
  obtain ⟨more, hmore⟩ := hf ((x.run c).run t).1.1 ((x.run c).run t).1.2 creating ((x.run c).run t).2
  refine ⟨steps ++ more, ?_⟩
  rw [Traffic.after_append, hsteps, hmore]
  rfl

/-- **Fetching is made of steps**, if creating values is. The get is the last of those under way
while its value is created, and so it is again when the value is there. -/
theorem fetch {create : List K → StateT (SearchCache K V) (StateM τ) V}
    (hcreate : ∀ path, Drives (create path)) (path : List K) :
    Drives (SearchCache.fetch create path) := by
  intro c creating t
  rw [SearchCache.run_fetch]
  cases hfound : c.lookup path with
  | some value =>
    refine ⟨[.arrive path], ?_⟩
    simp [Traffic.after, Traffic.step, hfound]
  | none =>
    obtain ⟨steps, hsteps⟩ := hcreate path c (creating ++ [path]) t
    have harrive : (Traffic.step ⟨c, creating⟩ (.arrive path)).1 = ⟨c, creating ++ [path]⟩ := by
      simp [Traffic.step, hfound]
    have hmiddle : Traffic.after ⟨c, creating⟩ (.arrive path :: steps) =
        ⟨(((create path).run c).run t).1.2, creating ++ [path]⟩ := by
      rw [Traffic.after, List.foldl_cons, harrive, ← Traffic.after, hsteps]
    refine ⟨.arrive path :: steps ++
      [.created creating.length (((create path).run c).run t).1.1], ?_⟩
    rw [Traffic.after_append, hmiddle]
    simp [Traffic.after, Traffic.step, List.eraseIdx_append_of_length_le]

end Drives

end Palette
