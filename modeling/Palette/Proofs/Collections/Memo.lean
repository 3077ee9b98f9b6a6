import Mathlib.Data.List.Nodup
import Palette.Collections.SearchCache
import Palette.Proofs.Collections.Trie

/-!
# Caches seen as lists

What a search cache does can be said with a list of pairs, each a key path with its value, where
the oldest come first. Getting a path that is listed returns its value and changes nothing. Getting
any other path creates a value, puts the pair behind all others and drops pairs from the front until
there is room.

A cache `Mirrors` such a list: its queue shows the paths of the list in order, and what is found in
its trie is what is listed. Keeping a new value is the one step that changes both, first the new
pair and then the ones that have to go. The paths are distinct, which is why taking a path out of
the trie takes nothing out but its pair.

Main statement: `Mirrors.store`.
-/

namespace Palette

variable {K V : Type}

/-! ## Lists of pairs -/

/-- The values by key path, oldest first. -/
structure Memo (K V : Type) where
  maxSize : Nat
  entries : List (List K × V)

namespace Memo

/-- The memo without values. -/
def empty (maxSize : Nat) : Memo K V := ⟨maxSize, []⟩

/-- Number of values. -/
def size (m : Memo K V) : Nat := m.entries.length

/-- Forgets everything. -/
def clear (m : Memo K V) : Memo K V := empty m.maxSize

/-- The memo with one more pair behind the others. -/
def push (m : Memo K V) (path : List K) (value : V) : Memo K V :=
  { m with entries := m.entries ++ [(path, value)] }

/-- Drops pairs from the front until at most `maxSize` remain. -/
def trim (m : Memo K V) : Memo K V :=
  { m with entries := m.entries.drop (m.entries.length - m.maxSize) }

/-- The value listed for a path. -/
def lookup [BEq K] (m : Memo K V) (path : List K) : Option V := m.entries.lookup path

end Memo

/-! ## A cache and its list -/

/-- The cache holds what is listed, in the order of the list. -/
structure Mirrors [BEq K] (c : SearchCache K V) (m : Memo K V) : Prop where
  maxSize : c.maxSize = m.maxSize
  order : c.order.toList = m.entries.map (·.1)
  distinct : (m.entries.map (·.1)).Nodup
  lookup : ∀ path, c.lookup path = m.lookup path

section

variable [BEq K] {c : SearchCache K V} {m : Memo K V}

theorem Mirrors.empty (maxSize : Nat) :
    Mirrors (.empty maxSize : SearchCache K V) (.empty maxSize) where
  maxSize := rfl
  order := rfl
  distinct := List.nodup_nil
  lookup := Trie.lookup_empty

theorem Mirrors.size (h : Mirrors c m) : c.size = m.size := by
  rw [SearchCache.size, Queue.size, h.order, List.length_map, Memo.size]

theorem Mirrors.clear (h : Mirrors c m) : Mirrors c.clear m.clear := by
  rw [SearchCache.clear, Memo.clear, h.maxSize]
  exact .empty m.maxSize

end

/-- Fetching is looking up, creating on a miss, and storing. -/
theorem SearchCache.run_fetch {τ : Type} [BEq K]
    (create : List K → StateT (SearchCache K V) (StateM τ) V) (path : List K) (c : SearchCache K V)
    (t : τ) :
    ((fetch create path).run c).run t =
      match c.lookup path with
      | some value => ((value, c), t)
      | none =>
        ((((create path).run c).run t).1.2.store path (((create path).run c).run t).1.1,
          (((create path).run c).run t).2) := by
  unfold fetch
  cases h : c.lookup path <;> simp [h] <;> rfl

variable [BEq K] [LawfulBEq K]

theorem lookup_eq_none_iff_notMem {entries : List (List K × V)} {path : List K} :
    entries.lookup path = none ↔ path ∉ entries.map (·.1) := by
  rw [List.lookup_eq_none_iff]
  constructor
  · rintro h hmem
    obtain ⟨e, he, rfl⟩ := List.mem_map.mp hmem
    simpa using h e he
  · intro h e he
    exact bne_iff_ne.mpr fun hpath => h (hpath ▸ List.mem_map_of_mem he)

/-- Where paths are distinct, dropping pairs takes nothing away but what is found for their paths. -/
theorem lookup_drop {entries : List (List K × V)} (hdistinct : (entries.map (·.1)).Nodup)
    (n : Nat) (path : List K) :
    (entries.drop n).lookup path =
      if ((entries.map (·.1)).take n).contains path then none else entries.lookup path := by
  have hsplit : entries.lookup path =
      ((entries.take n).lookup path).or ((entries.drop n).lookup path) := by
    rw [← List.lookup_append, List.take_append_drop]
  rw [← List.take_append_drop n entries, List.map_append] at hdistinct
  obtain ⟨-, -, hapart⟩ := List.nodup_append'.mp hdistinct
  rw [← List.map_take]
  split
  · next hfront =>
    have hmem := List.contains_iff_mem.mp hfront
    exact lookup_eq_none_iff_notMem.mpr (hapart hmem)
  · next hfront =>
    have hnone := lookup_eq_none_iff_notMem.mpr fun hmem => hfront (List.contains_iff_mem.mpr hmem)
    rw [hsplit, hnone, Option.none_or]

namespace SearchCache

/-- Takes the values at the given paths out of a trie. -/
def eraseAll (paths : List (List K)) (root : Trie K V) : Trie K V :=
  paths.foldl (fun root path => root.erase path) root

/-- Taking paths out of a trie keeps what taking out one of them keeps. -/
theorem inherited_eraseAll {P : Trie K V → Prop} (hP : Trie.Inherited P)
    (paths : List (List K)) {root : Trie K V} (h : P root) : P (eraseAll paths root) := by
  induction paths generalizing root with
  | nil => exact h
  | cons first paths ih => exact ih (hP.erase h first)

theorem lookup_eraseAll (paths : List (List K)) (root : Trie K V) (path : List K) :
    (eraseAll paths root).lookup path =
      if paths.contains path then none else root.lookup path := by
  induction paths generalizing root with
  | nil => rfl
  | cons first paths ih =>
    rw [eraseAll, List.foldl_cons, ← eraseAll, ih, Trie.lookup_erase, List.contains_cons]
    by_cases hpath : first = path
    · simp [hpath]
    · simp [hpath, Ne.symm hpath]

omit [LawfulBEq K] in
/-- Eviction takes out as many of the first paths as there are too many. -/
theorem evictFrom_eq (maxSize : Nat) (root : Trie K V) (paths : List (List K)) :
    evictFrom maxSize root paths =
      (eraseAll (paths.take (paths.length - maxSize)) root,
        paths.drop (paths.length - maxSize)) := by
  induction paths generalizing root with
  | nil =>
    rw [evictFrom, List.take_nil, List.drop_nil]
    rfl
  | cons oldest rest ih =>
    rw [evictFrom]
    split
    · next hfull =>
      have hexcess : (oldest :: rest).length - maxSize = rest.length - maxSize + 1 := by
        rw [List.length_cons] at hfull ⊢
        omega
      rw [ih, hexcess, List.take_succ_cons, List.drop_succ_cons]
      rfl
    · next hroom =>
      rw [Nat.sub_eq_zero_of_le (Nat.le_of_not_lt hroom)]
      rfl

omit [LawfulBEq K] in
theorem evict_eq (c : SearchCache K V) :
    c.evict = { c with
      root := eraseAll (c.order.toList.take (c.size - c.maxSize)) c.root
      order := ⟨c.order.toList.drop (c.size - c.maxSize)⟩ } := by
  rw [evict, evictFrom_eq]
  rfl

omit [LawfulBEq K] in
/-- After eviction there are at most `maxSize` values. -/
theorem size_evict (c : SearchCache K V) : c.evict.size ≤ c.maxSize := by
  rw [evict_eq, size, Queue.size, List.length_drop, size, Queue.size]
  omega

omit [LawfulBEq K] in
/-- A value that is kept is a new one. -/
theorem store_of_lookup_eq_none {c : SearchCache K V} {path : List K}
    (h : c.lookup path = none) (value : V) :
    c.store path value =
      (value,
        { c with root := c.root.insert value path, order := c.order.push path }.evict) := by
  have hfresh : (c.root.lookup path).isNone = true := Option.isNone_iff_eq_none.mpr h
  rw [store, h]
  simp only [Trie.put_eq, hfresh, if_true]

end SearchCache

namespace Mirrors

variable {c : SearchCache K V} {m : Memo K V}

/-- A new pair comes last. -/
theorem push (h : Mirrors c m) {path : List K} (hnew : c.lookup path = none) (value : V) :
    Mirrors { c with root := c.root.insert value path, order := c.order.push path }
      (m.push path value) where
  maxSize := h.maxSize
  order := by simp [Memo.push, h.order]
  distinct := by
    rw [h.lookup path, Memo.lookup, lookup_eq_none_iff_notMem] at hnew
    rw [Memo.push, List.map_append, List.map_singleton, ← List.concat_eq_append]
    exact List.Nodup.concat hnew h.distinct
  lookup path' := by
    rw [SearchCache.lookup, Trie.lookup_insert, Memo.lookup, Memo.push, List.lookup_append,
      ← Memo.lookup, ← h.lookup]
    by_cases hpath : path = path'
    · subst hpath
      simp [hnew]
    · have hlast : [(path, value)].lookup path' = none :=
        lookup_eq_none_iff_notMem.mpr (by simpa using Ne.symm hpath)
      simp [hpath, hlast, SearchCache.lookup]

/-- The pairs that have to go are taken out of the trie. -/
theorem evict (h : Mirrors c m) : Mirrors c.evict m.trim where
  maxSize := h.maxSize
  order := by simp [SearchCache.evict_eq, Memo.trim, h.order, h.maxSize, h.size, Memo.size]
  distinct := by
    rw [Memo.trim, List.map_drop]
    exact h.distinct.sublist (List.drop_sublist _ _)
  lookup path := by
    rw [SearchCache.lookup, SearchCache.evict_eq, SearchCache.lookup_eraseAll,
      ← SearchCache.lookup, h.lookup, Memo.lookup, Memo.lookup, Memo.trim,
      lookup_drop h.distinct, h.order, h.maxSize, h.size, Memo.size]

/-- **Keeping a new value lists it**, behind the others, and lets the first ones go. -/
theorem store (h : Mirrors c m) {path : List K} (hnew : c.lookup path = none) (value : V) :
    (c.store path value).1 = value ∧ Mirrors (c.store path value).2 (m.push path value).trim := by
  rw [SearchCache.store_of_lookup_eq_none hnew]
  exact ⟨rfl, (h.push hnew value).evict⟩

end Mirrors

end Palette
