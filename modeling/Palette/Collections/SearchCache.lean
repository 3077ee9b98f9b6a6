import Palette.Collections.Queue
import Palette.Collections.Trie
import Palette.Text.Record

/-!
# Search caches

A search cache remembers the values created for up to `maxSize` key paths. Which path goes first
when there are too many depends on the order of creation alone: finding a value does not make it
younger.

Fetching is two atomic steps with the creation of the value between them. `lookup` answers from
the cache; on a miss the value is created, and creating it may use the cache in any way; `store`
then keeps the value, unless the path has got one in the meantime, which is returned instead.
-/

namespace Palette

/-- A memory of at most `maxSize` values by key path. -/
structure SearchCache (K V : Type _) where
  maxSize : Nat
  /-- The values by key path. -/
  root : Trie K V
  /-- The key paths that hold values, oldest first. -/
  order : Queue (List K)

namespace SearchCache

variable {K V : Type _}

/-- The cache without values. -/
def empty (maxSize : Nat) : SearchCache K V := ⟨maxSize, .empty, .empty⟩

/-- Number of values. -/
def size (c : SearchCache K V) : Nat := c.order.size

/-- Forgets everything. -/
def clear (c : SearchCache K V) : SearchCache K V := empty c.maxSize

/-- The cache described by its bounds. -/
def describe (c : SearchCache K V) : String :=
  Text.openRecord "SearchCache"
    [Text.field "max_size" (toString c.maxSize), Text.field "len" (toString c.size)]

variable [BEq K]

/-- The value at a key path. -/
def lookup (c : SearchCache K V) (path : List K) : Option V := c.root.lookup path

/-- Whether there is a value at a key path. -/
def contains (c : SearchCache K V) (path : List K) : Bool := (c.lookup path).isSome

/-- Takes the first of the given paths, the oldest, out of a trie until at most `maxSize` are left.
Returns the trie and the paths that are left. -/
def evictFrom (maxSize : Nat) (root : Trie K V) : List (List K) → Trie K V × List (List K)
  | [] => (root, [])
  | oldest :: rest =>
    if (oldest :: rest).length > maxSize then evictFrom maxSize (root.erase oldest) rest
    else (root, oldest :: rest)

/-- Drops the oldest values until at most `maxSize` are left. -/
def evict (c : SearchCache K V) : SearchCache K V :=
  let (root, paths) := evictFrom c.maxSize c.root c.order.toList
  { c with root, order := ⟨paths⟩ }

/--
Keeps a created value, unless the path has one already. Returns the value that the path stands
for, even when there is no room for it.
-/
def store (c : SearchCache K V) (path : List K) (value : V) : V × SearchCache K V :=
  match c.lookup path with
  | some existing => (existing, c)
  | none =>
    let (fresh, root) := c.root.put value path
    let order := if fresh then c.order.push path else c.order
    (value, { c with root, order }.evict)

/-- The value at a key path, created on a miss. -/
def fetch {m : Type _ → Type _} [Monad m] [MonadStateOf (SearchCache K V) m]
    (create : List K → m V) (path : List K) : m V := do
  match (← getThe (SearchCache K V)).lookup path with
  | some value => return value
  | none =>
    let value ← create path
    modifyGetThe (SearchCache K V) fun c => c.store path value

/-- The values at several key paths, one after the other. -/
def fetchAll {m : Type _ → Type _} [Monad m] [MonadStateOf (SearchCache K V) m]
    (create : List K → m V) (paths : List (List K)) : m (List V) :=
  paths.mapM (fetch create)

/-- The values at several paths of a single key. -/
def fetchEach {m : Type _ → Type _} [Monad m] [MonadStateOf (SearchCache K V) m]
    (create : List K → m V) (keys : List K) : m (List V) :=
  fetchAll create (keys.map ([·]))

/-- A path that holds a value keeps it. -/
theorem store_of_lookup {c : SearchCache K V} {path : List K} {existing value : V}
    (h : c.lookup path = some existing) : c.store path value = (existing, c) := by
  simp [store, h]

end SearchCache

end Palette
