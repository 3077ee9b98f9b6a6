import Palette.Proofs.Collections.Trie

/-!
# Pruned tries

A pruned trie has no level that no value needs: below the root there is a value in every subtree.
So what is found in it tells the whole trie. Two pruned tries in which the same is found at every
path are `Alike`: where keys are distinct, nothing but the order of children tells them apart.

Nor does a change that is undone leave anything behind. A level that putting a value in makes is
empty again once the value is taken out, and it is taken away. A level that was there before holds
another value, and it stays.

Changes recurse on the key path, and so do the proofs about them. They say what becomes of the
children of one node: a subtree that comes out as it was is put back in its place.

Main statements: `alike_iff_lookup`, `erase_insert` and `Pruned.canonical`.
-/

namespace Palette.Trie

variable {K V : Type _}

@[simp] theorem node_value_children (t : Trie K V) : node t.value t.children = t := by
  cases t
  rfl

variable [BEq K]

/-- Both tries have the same value and the same keys, and they are alike below each key. -/
inductive Alike : Trie K V → Trie K V → Prop where
  | node {value : Option V} {children children' : List (K × Trie K V)}
      (keys : ∀ key, (child? key children).isSome = (child? key children').isSome)
      (below : ∀ key t t', child? key children = some t → child? key children' = some t' →
        Alike t t') :
      Alike (.node value children) (.node value children')

variable [LawfulBEq K]

/-! ## Children put back -/

section

variable {key : K} {subtree : Trie K V} {children : List (K × Trie K V)}

omit [LawfulBEq K] in
/-- Putting back what is there changes nothing. -/
theorem setChild_of_child? (h : child? key children = some subtree) :
    setChild key subtree children = children := by
  induction children with
  | nil => cases h
  | cons c rest ih =>
    obtain ⟨k, t⟩ := c
    unfold child? at h
    unfold setChild
    split at h
    · next hk =>
      cases h
      rw [if_pos hk]
    · next hk => rw [if_neg hk, ih h]

/-- The subtree set last is the one that stays. -/
theorem setChild_setChild (key : K) (subtree subtree' : Trie K V)
    (children : List (K × Trie K V)) :
    setChild key subtree (setChild key subtree' children) = setChild key subtree children := by
  induction children with
  | nil => simp [setChild]
  | cons c rest ih =>
    obtain ⟨k, t⟩ := c
    by_cases hk : k = key <;> simp [setChild, hk, ih]

omit [LawfulBEq K] in
/-- There is nothing to take away under a key that has no child. -/
theorem eraseChild_of_child? (h : child? key children = none) :
    eraseChild key children = children := by
  induction children with
  | nil => rfl
  | cons c rest ih =>
    obtain ⟨k, t⟩ := c
    unfold child? at h
    split at h
    · cases h
    · next hk =>
      have hrest : rest.filter (fun child => !(child.1 == key)) = rest := ih h
      simp [eraseChild, hk, hrest]

/-- A subtree that is taken away might as well not have been set. -/
theorem eraseChild_setChild (key : K) (subtree : Trie K V) (children : List (K × Trie K V)) :
    eraseChild key (setChild key subtree children) = eraseChild key children := by
  induction children with
  | nil => simp [setChild, eraseChild]
  | cons c rest ih =>
    obtain ⟨k, t⟩ := c
    unfold eraseChild at ih ⊢
    by_cases hk : k = key <;> simp [setChild, hk, ih]

end

/-! ## What is found tells the trie -/

namespace Pruned

variable {t : Trie K V}

/-- A child of a pruned trie is pruned, and there is something in it. -/
theorem child (h : t.Pruned) {key : K} {subtree : Trie K V}
    (hchild : child? key t.children = some subtree) :
    subtree.Pruned ∧ subtree.isEmpty = false := by
  have hmem := mem_of_child? hchild
  obtain ⟨nonempty, pruned⟩ := h
  exact ⟨pruned _ hmem, nonempty _ hmem⟩

/-- Something is found in a pruned trie that is not empty. -/
theorem exists_lookup (h : t.Pruned) (hne : t.isEmpty = false) :
    ∃ path v, t.lookup path = some v := by
  induction h with
  | @node value children nonempty _ ih =>
    cases value with
    | some v => exact ⟨[], v, rfl⟩
    | none =>
      cases children with
      | nil => cases hne
      | cons c rest =>
        -- the first child is not hidden behind another one
        have hchild : child? c.1 (c :: rest) = some c.2 := if_pos (beq_self_eq_true c.1)
        obtain ⟨path, v, hv⟩ := ih c List.mem_cons_self (nonempty c List.mem_cons_self)
        exact ⟨c.1 :: path, v, by rw [lookup_cons, children_node, hchild, Option.bind_some, hv]⟩

/-- A key has a child where something is found at a path that begins with it. -/
theorem isSome_child?_iff (h : t.Pruned) (key : K) :
    (child? key t.children).isSome = true ↔ ∃ path v, t.lookup (key :: path) = some v := by
  constructor
  · intro hsome
    obtain ⟨subtree, hchild⟩ := Option.isSome_iff_exists.mp hsome
    obtain ⟨hpruned, hne⟩ := h.child hchild
    obtain ⟨path, v, hv⟩ := hpruned.exists_lookup hne
    exact ⟨path, v, by rw [lookup_cons, hchild, Option.bind_some, hv]⟩
  · rintro ⟨path, v, hv⟩
    obtain ⟨subtree, hchild, -⟩ := Option.bind_eq_some_iff.mp hv
    exact Option.isSome_of_eq_some hchild

theorem alike_of_lookup {t' : Trie K V} (h : t.Pruned) (h' : t'.Pruned)
    (hlookup : ∀ path, t.lookup path = t'.lookup path) : t.Alike t' := by
  induction h generalizing t' with
  | @node value children nonempty pruned ih =>
    have h : (Trie.node value children).Pruned := .node nonempty pruned
    obtain ⟨value', children'⟩ := t'
    obtain rfl : value = value' := hlookup []
    refine .node (fun key => ?_) (fun key t t' hchild hchild' => ?_)
    · rw [Bool.eq_iff_iff]
      calc (child? key children).isSome = true
          ↔ ∃ path v, (Trie.node value children).lookup (key :: path) = some v :=
            h.isSome_child?_iff key
        _ ↔ ∃ path v, (Trie.node value children').lookup (key :: path) = some v := by
            simp only [hlookup]
        _ ↔ (child? key children').isSome = true := (h'.isSome_child?_iff key).symm
    · refine ih (key, t) (mem_of_child? hchild) (h'.child hchild').1 fun path => ?_
      have hbelow := hlookup (key :: path)
      rwa [lookup_cons, lookup_cons, children_node, children_node, hchild, hchild'] at hbelow

end Pruned

omit [LawfulBEq K] in
theorem Alike.lookup_eq {t t' : Trie K V} (h : t.Alike t') (path : List K) :
    t.lookup path = t'.lookup path := by
  induction h generalizing path with
  | @node value children children' keys _ ih =>
    cases path with
    | nil => rfl
    | cons key path =>
      rw [lookup_cons, lookup_cons, children_node, children_node]
      have hkey := keys key
      cases hchild : child? key children with
      | none =>
        rw [hchild, Option.isSome_none, eq_comm, Option.isSome_eq_false_iff,
          Option.isNone_iff_eq_none] at hkey
        rw [hkey]
      | some t =>
        rw [hchild, Option.isSome_some, eq_comm, Option.isSome_iff_exists] at hkey
        obtain ⟨t', hchild'⟩ := hkey
        rw [hchild', Option.bind_some, Option.bind_some, ih key t t' hchild hchild']

/-- **Pruned tries are alike exactly if the same is found in them.** -/
theorem alike_iff_lookup {t t' : Trie K V} (h : t.Pruned) (h' : t'.Pruned) :
    t.Alike t' ↔ ∀ path, t.lookup path = t'.lookup path :=
  ⟨Alike.lookup_eq, h.alike_of_lookup h'⟩

/-! ## Changes undone -/

omit [LawfulBEq K] in
/-- Taking a value out returns it. -/
theorem remove_eq (path : List K) (t : Trie K V) :
    t.remove path = (t.lookup path, t.erase path) := by
  refine Prod.ext ?_ rfl
  induction path generalizing t with
  | nil => rfl
  | cons key path ih =>
    rw [remove, lookup_cons]
    cases child? key t.children with
    | none => rfl
    | some subtree => exact ih subtree

section

variable {t : Trie K V} (h : t.Pruned) {path : List K} (habsent : t.lookup path = none)
include h habsent

/-- **Taking out what is not there changes nothing.** -/
theorem erase_of_lookup_eq_none : t.erase path = t := by
  induction path generalizing t with
  | nil =>
    obtain ⟨value, children⟩ := t
    obtain rfl : value = none := habsent
    rfl
  | cons key path ih =>
    rw [erase_cons]
    cases hchild : child? key t.children with
    | none => rfl
    | some subtree =>
      obtain ⟨hpruned, hne⟩ := h.child hchild
      rw [lookup_cons, hchild, Option.bind_some] at habsent
      simp only [ih hpruned habsent, hne, Bool.false_eq_true, if_false]
      rw [setChild_of_child? hchild, node_value_children]

/-- **Taking out what was put in where nothing was gives the trie back.** -/
theorem erase_insert (v : V) : (t.insert v path).erase path = t := by
  induction path generalizing t with
  | nil =>
    obtain ⟨value, children⟩ := t
    obtain rfl : value = none := habsent
    rfl
  | cons key path ih =>
    rw [insert_cons, erase_cons, children_node, child?_setChild_self]
    dsimp only
    cases hchild : child? key t.children with
    | none =>
      -- the level is a new one, and it goes
      have hempty : (empty : Trie K V).isEmpty = true := rfl
      rw [Option.getD_none, ih pruned_empty (lookup_empty path), if_pos hempty,
        eraseChild_setChild, eraseChild_of_child? hchild]
      exact node_value_children t
    | some subtree =>
      -- the level was there before, with something in it
      obtain ⟨hpruned, hne⟩ := h.child hchild
      rw [lookup_cons, hchild, Option.bind_some] at habsent
      rw [Option.getD_some, ih hpruned habsent, if_neg (Bool.eq_false_iff.mp hne),
        setChild_setChild, setChild_of_child? hchild]
      exact node_value_children t

end

/-- **Pruned tries are canonical.** Putting a value in and taking one out keep a trie pruned and
change what is found at the path alone. Taking out returns what was there; it changes nothing where
nothing was, and there it undoes putting in. A pruned trie is alike to any other one in which the
same is found. -/
theorem Pruned.canonical {t : Trie K V} (h : t.Pruned) (path : List K) (v : V) :
    (t.insert v path).Pruned ∧ (t.remove path).2.Pruned ∧
      (∀ path', (t.insert v path).lookup path' =
        if path == path' then some v else t.lookup path') ∧
      (∀ path', (t.remove path).2.lookup path' =
        if path == path' then none else t.lookup path') ∧
      (t.remove path).1 = t.lookup path ∧
      (t.lookup path = none →
        t.remove path = (none, t) ∧ (t.insert v path).remove path = (some v, t)) ∧
      ∀ t' : Trie K V, t'.Pruned → (t.Alike t' ↔ ∀ path', t.lookup path' = t'.lookup path') := by
  rw [remove_eq, remove_eq]
  refine ⟨inherited_pruned.insert h v path, inherited_pruned.erase h path,
    fun path' => lookup_insert v path path' t, fun path' => lookup_erase path path' t, rfl,
    fun habsent => ⟨?_, ?_⟩, fun t' h' => alike_iff_lookup h h'⟩
  · rw [habsent, erase_of_lookup_eq_none h habsent]
  · rw [lookup_insert_self, erase_insert h habsent]

/-- The path that gets a value is the beginning of one path and goes on from another one; the other
trie got the same values in another order. -/
theorem Pruned.canonical_prefixes :
    let t : Trie Char Nat := ((empty.insert 0 []).insert 1 ['a', 'b']).insert 2 ['c']
    let t' : Trie Char Nat := ((empty.insert 2 ['c']).insert 1 ['a', 'b']).insert 0 []
    t.Pruned ∧ t.lookup ['a'] = none ∧ (t.insert 3 ['a']).Pruned ∧
      (t.insert 3 ['a']).lookup ['a', 'b'] = some 1 ∧ t.remove ['a'] = (none, t) ∧
      (t.insert 3 ['a']).remove ['a'] = (some 3, t) ∧ t'.Pruned ∧ t.Alike t' := by
  intro t t'
  have h : t.Pruned := inherited_pruned.insert (inherited_pruned.insert
    (inherited_pruned.insert pruned_empty 0 []) 1 ['a', 'b']) 2 ['c']
  have h' : t'.Pruned := inherited_pruned.insert (inherited_pruned.insert
    (inherited_pruned.insert pruned_empty 2 ['c']) 1 ['a', 'b']) 0 []
  obtain ⟨hinsert, -, hlookup, -, -, habsent, hsame⟩ := h.canonical ['a'] 3
  refine ⟨h, rfl, hinsert, hlookup ['a', 'b'], (habsent rfl).1, (habsent rfl).2, h', ?_⟩
  refine (hsame t' h').mpr fun path => ?_
  simp only [t, t', lookup_insert]
  grind

end Palette.Trie
