import Mathlib.Data.List.Nodup
import Palette.Collections.Trie

/-!
# What tries hold

Putting a value at a key path and taking it away change what is found there and nothing else, also
where one path is the beginning of the other. Both keep a trie pruned. They also keep the keys of
every node distinct, so that nothing is hidden behind a child with the same key: what a trie holds,
`Holds`, is what is found in it.

Looking up and changing recurse on the key path, and so do the proofs. What a change keeps is shown
node by node: `Inherited` lists what may happen to one node, and the two changes are made of that.

Main statements: `lookup_insert`, `lookup_erase` and `holds_iff_lookup`.
-/

namespace Palette.Trie

variable {K V : Type _}

/-- There is a node at the path, and it holds the value. -/
inductive Holds : Trie K V → List K → V → Prop where
  | here {v : V} {children : List (K × Trie K V)} : Holds (.node (some v) children) [] v
  | inside {value : Option V} {children : List (K × Trie K V)} {key : K} {t : Trie K V}
      {path : List K} {v : V} (hchild : (key, t) ∈ children) (h : Holds t path v) :
      Holds (.node value children) (key :: path) v

/-- The children of every node have distinct keys. -/
inductive Keyed : Trie K V → Prop where
  | node {value : Option V} {children : List (K × Trie K V)}
      (distinct : (children.map (·.1)).Nodup) (keyed : ∀ child ∈ children, Keyed child.2) :
      Keyed (.node value children)

theorem keyed_empty : Keyed (empty : Trie K V) := .node List.nodup_nil nofun

@[simp] theorem children_node (value : Option V) (children : List (K × Trie K V)) :
    (node value children).children = children := rfl

variable [BEq K]

@[simp] theorem lookup_cons (key : K) (path : List K) (t : Trie K V) :
    t.lookup (key :: path) = (child? key t.children).bind (lookup path) := rfl

theorem erase_cons (key : K) (path : List K) (t : Trie K V) :
    t.erase (key :: path) =
      match child? key t.children with
      | none => t
      | some subtree =>
        if (subtree.erase path).isEmpty then node t.value (eraseChild key t.children)
        else node t.value (setChild key (subtree.erase path) t.children) := by
  rw [erase, remove]
  cases child? key t.children with
  | none => rfl
  | some subtree => exact apply_ite (node t.value) _ _ _

variable [LawfulBEq K]

/-! ## Children -/

section

variable {key key' : K} {subtree t : Trie K V} {children : List (K × Trie K V)} {c : K × Trie K V}

theorem child?_setChild (key key' : K) (subtree : Trie K V) (children : List (K × Trie K V)) :
    child? key' (setChild key subtree children) =
      if key == key' then some subtree else child? key' children := by
  induction children with
  | nil => rfl
  | cons c rest ih =>
    obtain ⟨k, t⟩ := c
    by_cases hk : k = key
    · subst hk
      by_cases hkey : k = key' <;> simp [setChild, child?, hkey]
    · by_cases hkey : k = key'
      · subst hkey
        simp [setChild, child?, hk, Ne.symm hk]
      · simp [setChild, child?, hk, hkey, ih]

theorem child?_eraseChild (key key' : K) (children : List (K × Trie K V)) :
    child? key' (eraseChild key children) = if key == key' then none else child? key' children := by
  induction children with
  | nil => simp [eraseChild, child?]
  | cons c rest ih =>
    obtain ⟨k, t⟩ := c
    unfold eraseChild at ih ⊢
    by_cases hk : k = key
    · subst hk
      by_cases hkey : k = key'
      · subst hkey
        simpa using ih
      · simp [child?, hkey, ih]
    · by_cases hkey : k = key'
      · subst hkey
        simp [child?, hk, Ne.symm hk]
      · simp [child?, hk, hkey, ih]

theorem mem_of_child? (h : child? key children = some t) : (key, t) ∈ children := by
  induction children with
  | nil => cases h
  | cons c rest ih =>
    obtain ⟨k, t'⟩ := c
    unfold child? at h
    split at h
    · next hk =>
      cases h
      rw [← eq_of_beq hk]
      exact List.mem_cons_self
    · exact List.mem_cons_of_mem _ (ih h)

/-- Where keys are distinct, a child is the first one with its key. -/
theorem child?_of_mem (hdistinct : (children.map (·.1)).Nodup) (h : (key, t) ∈ children) :
    child? key children = some t := by
  induction children with
  | nil => cases h
  | cons c rest ih =>
    obtain ⟨hnew, hrest⟩ := List.nodup_cons.mp hdistinct
    rcases List.mem_cons.mp h with rfl | h
    · simp [child?]
    · have hne : c.1 ≠ key := fun he => hnew (List.mem_map.mpr ⟨_, h, he.symm⟩)
      simp [child?, hne, ih hrest h]

theorem mem_setChild (h : c ∈ setChild key subtree children) :
    c = (key, subtree) ∨ c ∈ children := by
  induction children with
  | nil => exact .inl (List.mem_singleton.mp h)
  | cons c' rest ih =>
    obtain ⟨k, t⟩ := c'
    unfold setChild at h
    split at h
    · next hk =>
      rcases List.mem_cons.mp h with rfl | h
      · exact .inl (by rw [eq_of_beq hk])
      · exact .inr (List.mem_cons_of_mem _ h)
    · rcases List.mem_cons.mp h with rfl | h
      · exact .inr List.mem_cons_self
      · exact (ih h).imp_right (List.mem_cons_of_mem _)

/-- Setting a child adds its key behind the others, if it is a new one. -/
theorem keys_setChild (key : K) (subtree : Trie K V) (children : List (K × Trie K V)) :
    (setChild key subtree children).map (·.1) =
      if children.any (·.1 == key) then children.map (·.1) else children.map (·.1) ++ [key] := by
  induction children with
  | nil => rfl
  | cons c rest ih =>
    obtain ⟨k, t⟩ := c
    by_cases hk : k = key
    · simp [setChild, hk]
    · simp only [setChild, hk, beq_iff_eq, if_false, List.map_cons, ih, List.any_cons]
      split <;> simp_all

theorem nodup_setChild (hdistinct : (children.map (·.1)).Nodup) :
    ((setChild key subtree children).map (·.1)).Nodup := by
  rw [keys_setChild]
  split
  · exact hdistinct
  · next hnew =>
    rw [← List.concat_eq_append]
    refine List.Nodup.concat (fun hmem => hnew ?_) hdistinct
    obtain ⟨c, hc, rfl⟩ := List.mem_map.mp hmem
    exact List.any_eq_true.mpr ⟨c, hc, beq_self_eq_true _⟩

omit [LawfulBEq K] in
theorem setChild_ne_nil : setChild key subtree children ≠ [] := by
  cases children with
  | nil => exact List.cons_ne_nil _ _
  | cons c rest =>
    unfold setChild
    split <;> exact List.cons_ne_nil _ _

end

/-! ## Putting a value in -/

theorem cons_beq_cons_self (key : K) (path path' : List K) :
    (key :: path == key :: path') = (path == path') := by
  rw [List.cons_beq_cons, beq_self_eq_true, Bool.true_and]

section

variable (v : V) (path path' : List K) (t : Trie K V)

omit [LawfulBEq K] in
@[simp] theorem lookup_empty : (empty : Trie K V).lookup path = none := by
  cases path <;> rfl

/-- **Putting a value in changes what is found at its path alone.** -/
theorem lookup_insert :
    (t.insert v path).lookup path' = if path == path' then some v else t.lookup path' := by
  induction path generalizing t path' with
  | nil => cases path' <;> rfl
  | cons key path ih =>
    cases path' with
    | nil => rfl
    | cons key' path' =>
      rw [insert_cons, lookup_cons, lookup_cons, children_node, child?_setChild]
      by_cases hkey : key = key'
      · subst hkey
        rw [if_pos (beq_self_eq_true key), Option.bind_some, ih, cons_beq_cons_self]
        cases child? key t.children <;> simp
      · simp [hkey]

omit [LawfulBEq K] in
/-- Putting a value in tells whether there was none. -/
theorem put_eq : t.put v path = ((t.lookup path).isNone, t.insert v path) := by
  refine Prod.ext ?_ rfl
  induction path generalizing t with
  | nil => rfl
  | cons key path ih =>
    rw [lookup_cons]
    refine (ih ((child? key t.children).getD empty)).trans ?_
    cases child? key t.children with
    | none => rw [Option.getD_none, lookup_empty, Option.bind_none]
    | some subtree => rfl

omit [LawfulBEq K] in
theorem isEmpty_insert : (t.insert v path).isEmpty = false := by
  cases path with
  | nil => rfl
  | cons key path =>
    have hne : setChild key (((child? key t.children).getD empty).insert v path) t.children ≠ [] :=
      setChild_ne_nil
    simp [insert_cons, isEmpty, hne]

end

/-! ## Taking a value out -/

section

variable (path path' : List K) (t : Trie K V)

omit [LawfulBEq K] in
theorem lookup_of_isEmpty {t : Trie K V} (h : t.isEmpty = true) : t.lookup path = none := by
  obtain ⟨value, children⟩ := t
  obtain ⟨hvalue, hchildren⟩ := Bool.and_eq_true_iff.mp h
  rw [List.isEmpty_iff.mp hchildren, Option.isNone_iff_eq_none.mp hvalue]
  exact lookup_empty path

/-- **Taking a value out changes what is found at its path alone.** -/
theorem lookup_erase :
    (t.erase path).lookup path' = if path == path' then none else t.lookup path' := by
  induction path generalizing t path' with
  | nil => cases path' <;> rfl
  | cons key path ih =>
    rw [erase_cons]
    cases hc : child? key t.children with
    | none =>
      by_cases hpath : key :: path = path'
      · subst hpath
        simp [hc]
      · simp [hpath]
    | some subtree =>
      cases path' with
      | nil =>
        dsimp only
        split <;> rfl
      | cons key' path' =>
        dsimp only
        split
        · -- the level goes: nothing was found below but at the path
          next hempty =>
          rw [lookup_cons, lookup_cons, children_node, child?_eraseChild]
          by_cases hkey : key = key'
          · subst hkey
            rw [if_pos (beq_self_eq_true key), cons_beq_cons_self, hc, Option.bind_none,
              Option.bind_some, ← ih, lookup_of_isEmpty path' hempty]
          · simp [hkey]
        · rw [lookup_cons, lookup_cons, children_node, child?_setChild]
          by_cases hkey : key = key'
          · subst hkey
            rw [if_pos (beq_self_eq_true key), Option.bind_some, ih, cons_beq_cons_self, hc,
              Option.bind_some]
          · simp [hkey]

end

/-! ## What changes keep -/

/-- A property of tries that changes at a single node keep, as long as no child is left empty. -/
structure Inherited (P : Trie K V → Prop) : Prop where
  empty : P empty
  child {t : Trie K V} (h : P t) {c : K × Trie K V} (hc : c ∈ t.children) : P c.2
  setValue {t : Trie K V} (h : P t) (value : Option V) : P (node value t.children)
  setChild {t subtree : Trie K V} (h : P t) (hsubtree : P subtree)
    (hne : subtree.isEmpty = false) (key : K) :
    P (node t.value (setChild key subtree t.children))
  eraseChild {t : Trie K V} (h : P t) (key : K) : P (node t.value (eraseChild key t.children))

namespace Inherited

variable {P : Trie K V → Prop} (inherited : Inherited P) {t : Trie K V}
include inherited

theorem insert (h : P t) (v : V) (path : List K) : P (t.insert v path) := by
  induction path generalizing t with
  | nil => exact inherited.setValue h (some v)
  | cons key path ih =>
    refine inherited.setChild h (ih ?_) (isEmpty_insert v path _) key
    cases hc : child? key t.children with
    | none => exact inherited.empty
    | some subtree => exact inherited.child h (mem_of_child? hc)

theorem erase (h : P t) (path : List K) : P (t.erase path) := by
  induction path generalizing t with
  | nil => exact inherited.setValue h none
  | cons key path ih =>
    rw [erase_cons]
    cases hc : child? key t.children with
    | none => exact h
    | some subtree =>
      dsimp only
      split
      · exact inherited.eraseChild h key
      · next hne =>
        have hsmaller := ih (inherited.child h (mem_of_child? hc))
        exact inherited.setChild h hsmaller (Bool.eq_false_iff.mpr hne) key

end Inherited

theorem inherited_pruned : Inherited (Pruned : Trie K V → Prop) where
  empty := pruned_empty
  child h := by
    obtain ⟨-, pruned⟩ := h
    exact pruned _
  setValue h value := by
    obtain ⟨nonempty, pruned⟩ := h
    exact .node nonempty pruned
  setChild h hsubtree hne key := by
    obtain ⟨nonempty, pruned⟩ := h
    exact .node (fun c hc => (mem_setChild hc).elim (fun h => h ▸ hne) (nonempty c))
      (fun c hc => (mem_setChild hc).elim (fun h => h ▸ hsubtree) (pruned c))
  eraseChild h key := by
    obtain ⟨nonempty, pruned⟩ := h
    exact .node (fun c hc => nonempty c (List.mem_of_mem_filter hc))
      (fun c hc => pruned c (List.mem_of_mem_filter hc))

theorem inherited_keyed : Inherited (Keyed : Trie K V → Prop) where
  empty := keyed_empty
  child h := by
    obtain ⟨-, keyed⟩ := h
    exact keyed _
  setValue h value := by
    obtain ⟨distinct, keyed⟩ := h
    exact .node distinct keyed
  setChild h hsubtree _ key := by
    obtain ⟨distinct, keyed⟩ := h
    exact .node (nodup_setChild distinct)
      (fun c hc => (mem_setChild hc).elim (fun h => h ▸ hsubtree) (keyed c))
  eraseChild h key := by
    obtain ⟨distinct, keyed⟩ := h
    exact .node (distinct.sublist (List.filter_sublist.map _))
      (fun c hc => keyed c (List.mem_of_mem_filter hc))

/-! ## What is held is found -/

/-- **What a trie holds is what is found in it**, where keys are distinct. -/
theorem holds_iff_lookup {t : Trie K V} (h : t.Keyed) {path : List K} {v : V} :
    t.Holds path v ↔ t.lookup path = some v := by
  constructor
  · intro hholds
    induction hholds with
    | here => rfl
    | @inside _ children key t path v hchild _ ih =>
      have hfound : child? key children = some t := by
        cases h with
        | node distinct _ => exact child?_of_mem distinct hchild
      rw [lookup_cons, children_node, hfound]
      exact ih (inherited_keyed.child h hchild)
  · intro hlookup
    induction path generalizing t with
    | nil =>
      obtain ⟨value, children⟩ := t
      cases hlookup
      exact .here
    | cons key path ih =>
      obtain ⟨subtree, hchild, hsubtree⟩ := Option.bind_eq_some_iff.mp hlookup
      have hmem := mem_of_child? hchild
      obtain ⟨value, children⟩ := t
      exact .inside hmem (ih (inherited_keyed.child h hmem) hsubtree)

end Palette.Trie
