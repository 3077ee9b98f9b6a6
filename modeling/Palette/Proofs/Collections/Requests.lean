import Palette.Proofs.Collections.Memo

/-!
# Requests to a cache

A search cache and a list of pairs that it mirrors answer requests alike, whatever is asked and in
whatever order. The values are created by a function with a state of its own, which sees how often
it is called and for what: it is called for the same paths in the same order.

`Agree` says of two computations that they give the same when they start from such a pair, and leave
such a pair behind. It is carried through whatever computations are made of, so that only fetching a
single value has to be looked at. Hits find the same, and misses are a matter of `Mirrors.store`.

Main statement: `SearchCache.session_eq_memo`.
-/

namespace Palette

variable {K V σ τ β γ : Type}

/-- What a cache may be asked for. -/
inductive CacheRequest (K : Type) where
  | get (path : List K)
  | getAll (paths : List (List K))
  | getEach (keys : List K)
  | contains (path : List K)
  | clear

/-- What it answers. -/
inductive CacheReply (V : Type) where
  | value (v : V)
  | values (vs : List V)
  | truth (b : Bool)
  | done
  deriving DecidableEq

/-- Creates a value and writes down for which path. -/
def noted (create : List K → StateM σ V) (path : List K) : StateM (σ × List (List K)) V :=
  fun (s, calls) =>
    let (value, s) := create path s
    (value, s, calls ++ [path])

namespace SearchCache

variable [BEq K]

/-- Answers a request. -/
def reply (create : List K → StateM τ V) :
    CacheRequest K → StateT (SearchCache K V) (StateM τ) (CacheReply V)
  | .get path => .value <$> fetch (fun path => StateT.lift (create path)) path
  | .getAll paths => .values <$> fetchAll (fun path => StateT.lift (create path)) paths
  | .getEach keys => .values <$> fetchEach (fun path => StateT.lift (create path)) keys
  | .contains path => return .truth ((← get).contains path)
  | .clear => do
    modify clear
    return .done

/-- Answers requests, and tells after each of them how many values there are. -/
def serve (create : List K → StateM τ V) (requests : List (CacheRequest K)) :
    StateT (SearchCache K V) (StateM τ) (List (CacheReply V × Nat)) :=
  requests.mapM fun request => return (← reply create request, (← get).size)

/-- What comes of requests to a cache without values: the answers, the state in which they leave
`create`, and the paths that it was called for, in order. -/
def session (create : List K → StateM σ V) (maxSize : Nat) (requests : List (CacheRequest K))
    (s : σ) : List (CacheReply V × Nat) × σ × List (List K) :=
  let ((replies, _), made) := ((serve (noted create) requests).run (empty maxSize)).run (s, [])
  (replies, made)

end SearchCache

namespace Memo

variable [BEq K]

/-- The value listed for a path. If there is none, one is created and listed behind the others, and
the first ones are dropped until there is room. -/
def fetch (create : List K → StateM τ V) (path : List K) : StateT (Memo K V) (StateM τ) V := do
  match (← get).lookup path with
  | some value => return value
  | none =>
    let value ← create path
    modify fun m => (m.push path value).trim
    return value

/-- Answers a request. -/
def reply (create : List K → StateM τ V) :
    CacheRequest K → StateT (Memo K V) (StateM τ) (CacheReply V)
  | .get path => .value <$> fetch create path
  | .getAll paths => .values <$> paths.mapM (fetch create)
  | .getEach keys => .values <$> keys.mapM fun key => fetch create [key]
  | .contains path => return .truth ((← get).lookup path).isSome
  | .clear => do
    modify clear
    return .done

/-- Answers requests, and tells after each of them how many values there are. -/
def serve (create : List K → StateM τ V) (requests : List (CacheRequest K)) :
    StateT (Memo K V) (StateM τ) (List (CacheReply V × Nat)) :=
  requests.mapM fun request => return (← reply create request, (← get).size)

/-- What comes of requests to a list without pairs. -/
def session (create : List K → StateM σ V) (maxSize : Nat) (requests : List (CacheRequest K))
    (s : σ) : List (CacheReply V × Nat) × σ × List (List K) :=
  let ((replies, _), made) := ((serve (noted create) requests).run (empty maxSize)).run (s, [])
  (replies, made)

end Memo

/-! ## Computations that agree -/

/-- The computations give the same from a cache and a list that it mirrors, and leave such a pair
behind. -/
def Agree [BEq K] (x : StateT (SearchCache K V) (StateM τ) β) (y : StateT (Memo K V) (StateM τ) β) :
    Prop :=
  ∀ c m t, Mirrors c m → ((x.run c).run t).1.1 = ((y.run m).run t).1.1 ∧
    ((x.run c).run t).2 = ((y.run m).run t).2 ∧ Mirrors ((x.run c).run t).1.2 ((y.run m).run t).1.2

namespace Agree

section

variable [BEq K] {x : StateT (SearchCache K V) (StateM τ) β} {y : StateT (Memo K V) (StateM τ) β}

theorem pure (b : β) : Agree (pure b : StateT (SearchCache K V) (StateM τ) β) (pure b) :=
  fun _ _ _ h => ⟨rfl, rfl, h⟩

theorem bind (hx : Agree x y) {f : β → StateT (SearchCache K V) (StateM τ) γ}
    {g : β → StateT (Memo K V) (StateM τ) γ} (hf : ∀ b, Agree (f b) (g b)) :
    Agree (x >>= f) (y >>= g) := by
  intro c m t h
  obtain ⟨hvalue, hstate, hmirrors⟩ := hx c m t h
  have hleft : ((x >>= f).run c).run t =
      ((f ((x.run c).run t).1.1).run ((x.run c).run t).1.2).run ((x.run c).run t).2 := rfl
  have hright : ((y >>= g).run m).run t =
      ((g ((x.run c).run t).1.1).run ((y.run m).run t).1.2).run ((x.run c).run t).2 := by
    rw [hvalue, hstate]
    rfl
  rw [hleft, hright]
  exact hf _ _ _ _ hmirrors

theorem map (hx : Agree x y) (f : β → γ) : Agree (f <$> x) (f <$> y) := by
  rw [map_eq_pure_bind, map_eq_pure_bind]
  exact hx.bind fun b => pure (f b)

theorem mapM {f : β → StateT (SearchCache K V) (StateM τ) γ} {g : β → StateT (Memo K V) (StateM τ) γ}
    (hf : ∀ b, Agree (f b) (g b)) (bs : List β) : Agree (bs.mapM f) (bs.mapM g) := by
  induction bs with
  | nil => exact pure []
  | cons b bs ih =>
    rw [List.mapM_cons, List.mapM_cons]
    exact (hf b).bind fun first => ih.bind fun rest => pure (first :: rest)

/-- The number of values is the same. -/
theorem with_size (hx : Agree x y) :
    Agree (do return (← x, (← get).size) : StateT (SearchCache K V) (StateM τ) (β × Nat))
      (do return (← y, (← get).size)) :=
  hx.bind fun b _ _ _ h => ⟨congrArg (b, ·) h.size, rfl, h⟩

end

variable [BEq K] (create : List K → StateM τ V)

/-- A memo looks up, creates on a miss, and lists. -/
theorem run_memoFetch (path : List K) (m : Memo K V) (t : τ) :
    ((Memo.fetch create path).run m).run t =
      match m.lookup path with
      | some value => ((value, m), t)
      | none => (((create path t).1, (m.push path (create path t).1).trim), (create path t).2) := by
  unfold Memo.fetch
  cases h : m.lookup path <;> simp [h] <;> rfl

variable [LawfulBEq K]

/-- **Fetching a value agrees.** -/
theorem fetch (path : List K) :
    Agree (SearchCache.fetch (fun path => StateT.lift (create path)) path)
      (Memo.fetch create path) := by
  intro c m t h
  rw [SearchCache.run_fetch, run_memoFetch, ← h.lookup path]
  cases hfound : c.lookup path with
  | some value => exact ⟨rfl, rfl, h⟩
  | none =>
    obtain ⟨hvalue, hmirrors⟩ := h.store hfound (create path t).1
    exact ⟨hvalue, rfl, hmirrors⟩

theorem reply (request : CacheRequest K) :
    Agree (SearchCache.reply create request) (Memo.reply create request) := by
  cases request with
  | get path => exact (fetch create path).map _
  | getAll paths => exact (mapM (fetch create) paths).map _
  | getEach keys =>
    refine map ?_ _
    rw [SearchCache.fetchEach, SearchCache.fetchAll, List.mapM_map]
    exact mapM (fun key => fetch create [key]) keys
  | contains path =>
    intro c m t h
    have hfound : c.contains path = (m.lookup path).isSome :=
      congrArg Option.isSome (h.lookup path)
    exact ⟨congrArg CacheReply.truth hfound, rfl, h⟩
  | clear => exact fun c m t h => ⟨rfl, rfl, h.clear⟩

end Agree

/-- **A cache is a list of pairs**: it answers requests as the list does, with as many values after
each of them, and creates the same values in the same order. -/
theorem SearchCache.session_eq_memo [BEq K] [LawfulBEq K] (create : List K → StateM σ V)
    (maxSize : Nat) (requests : List (CacheRequest K)) (s : σ) :
    SearchCache.session create maxSize requests s = Memo.session create maxSize requests s := by
  have hserve : Agree (SearchCache.serve (noted create) requests)
      (Memo.serve (noted create) requests) :=
    Agree.mapM (fun request => (Agree.reply (noted create) request).with_size) requests
  obtain ⟨hreplies, hmade, -⟩ := hserve _ _ (s, []) (Mirrors.empty maxSize)
  exact Prod.ext hreplies hmade

/-- The number of the call and the length of the path. -/
def numberedValue (path : List Char) : StateM Nat (Nat × Nat) := fun n => ((n, path.length), n + 1)

/-- With room for two values, finding the first one again does not keep it from being dropped. -/
theorem SearchCache.session_eq_memo_full :
    let requests : List (CacheRequest Char) :=
      [.get [], .getEach ['a', 'b'], .get ['a'], .getAll [['a', 'b'], []], .contains ['a'], .clear,
        .contains []]
    SearchCache.session numberedValue 2 requests 0 = Memo.session numberedValue 2 requests 0 ∧
      Memo.session numberedValue 2 requests 0 =
        ([(.value (0, 0), 1), (.values [(1, 1), (2, 1)], 2), (.value (1, 1), 2),
          (.values [(3, 2), (4, 0)], 2), (.truth false, 2), (.done, 0), (.truth false, 0)], 5,
          [[], ['a'], ['b'], ['a', 'b'], []]) :=
  ⟨SearchCache.session_eq_memo numberedValue 2 _ 0, by decide⟩

end Palette
