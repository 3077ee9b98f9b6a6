/-!
# Tries

A trie maps key paths, lists of keys of any length, to values: one level per key, so paths share
what they begin with. The children of a node are kept as pairs of a key and a subtree.

`insert` adds the levels it needs and `remove` takes away every level that it leaves empty, so
tries grown from the empty one by these two stay pruned: each node below the root holds a value
or has a child.

All operations recurse on the key path.
-/

namespace Palette

/-- A node with its value and its children. -/
inductive Trie (K V : Type _) where
  | node (value : Option V) (children : List (K × Trie K V))

namespace Trie

variable {K V : Type _}

/-- The trie without values. -/
def empty : Trie K V := node none []

instance : Inhabited (Trie K V) := ⟨empty⟩

/-- The value of the root. -/
def value : Trie K V → Option V
  | node value _ => value

/-- The subtrees of the root by key. -/
def children : Trie K V → List (K × Trie K V)
  | node _ children => children

/-- Whether the root has neither a value nor a child. -/
def isEmpty : Trie K V → Bool
  | node value children => value.isNone && children.isEmpty

/-- Every node but the root holds a value or has a child. -/
inductive Pruned : Trie K V → Prop
  | node {value : Option V} {children : List (K × Trie K V)}
      (nonempty : ∀ child ∈ children, child.2.isEmpty = false)
      (pruned : ∀ child ∈ children, Pruned child.2) :
      Pruned (.node value children)

/-- The empty trie is pruned. -/
theorem pruned_empty : Pruned (empty : Trie K V) :=
  .node (by simp) (by simp)

variable [BEq K]

/-! ## Children -/

/-- The first subtree under `key`. -/
def child? (key : K) : List (K × Trie K V) → Option (Trie K V)
  | [] => none
  | (k, t) :: rest => if k == key then some t else child? key rest

/-- Puts a subtree under `key`: in place of the first one there, or behind all others. -/
def setChild (key : K) (subtree : Trie K V) : List (K × Trie K V) → List (K × Trie K V)
  | [] => [(key, subtree)]
  | (k, t) :: rest =>
    if k == key then (k, subtree) :: rest else (k, t) :: setChild key subtree rest

/-- Takes away what is under `key`. -/
def eraseChild (key : K) (children : List (K × Trie K V)) : List (K × Trie K V) :=
  children.filter fun child => !(child.1 == key)

theorem child?_setChild_self [LawfulBEq K] (key : K) (subtree : Trie K V)
    (children : List (K × Trie K V)) :
    child? key (setChild key subtree children) = some subtree := by
  induction children with
  | nil => simp [setChild, child?]
  | cons c rest ih =>
    obtain ⟨k, t⟩ := c
    unfold setChild
    split
    · next h => simp [child?, h]
    · next h => simp [child?, h, ih]

/-! ## Key paths -/

/-- The value at a key path. -/
def lookup : List K → Trie K V → Option V
  | [], t => t.value
  | key :: path, t => (child? key t.children).bind (lookup path)

/-- Puts a value at a key path, with the levels it needs. Returns whether there was none before. -/
def put (v : V) : List K → Trie K V → Bool × Trie K V
  | [], t => (t.value.isNone, node (some v) t.children)
  | key :: path, t =>
    let (fresh, larger) := put v path ((child? key t.children).getD empty)
    (fresh, node t.value (setChild key larger t.children))

/-- The trie with a value at a key path and with the levels it needs. -/
def insert (v : V) (path : List K) (t : Trie K V) : Trie K V := (t.put v path).2

/-- Takes away the value at a key path and every level left empty by that. Returns what was there. -/
def remove : List K → Trie K V → Option V × Trie K V
  | [], t => (t.value, node none t.children)
  | key :: path, t =>
    match child? key t.children with
    | none => (none, t)
    | some subtree =>
      let (removed, smaller) := remove path subtree
      let children :=
        if smaller.isEmpty then eraseChild key t.children
        else setChild key smaller t.children
      (removed, node t.value children)

/-- The trie without the value at a key path and without every level left empty by that. -/
def erase (path : List K) (t : Trie K V) : Trie K V := (t.remove path).2

theorem insert_cons (v : V) (key : K) (path : List K) (t : Trie K V) :
    t.insert v (key :: path) =
      node t.value (setChild key (((child? key t.children).getD empty).insert v path)
        t.children) :=
  rfl

/-- Right after an insertion the value is there. -/
theorem lookup_insert_self [LawfulBEq K] (v : V) (path : List K) (t : Trie K V) :
    (t.insert v path).lookup path = some v := by
  induction path generalizing t with
  | nil => rfl
  | cons key path ih => simp [insert_cons, lookup, children, child?_setChild_self, ih]

end Trie

end Palette
