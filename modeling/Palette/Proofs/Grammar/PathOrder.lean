import Palette.Grammar.Lookahead

/-!
# The order of paths

The order of paths is a linear one, so sorting puts them into an order that depends on nothing but
which paths there are, and taking out those that equal the one before leaves each of them once.
-/

namespace Palette

namespace Path

theorem le_refl (p : Path) : p.le p = true := by
  induction p with
  | nil => rfl
  | cons a p ih => simp [le, ih]

theorem le_total (p q : Path) : (p.le q || q.le p) = true := by
  induction p generalizing q with
  | nil => rfl
  | cons a p ih =>
    cases q with
    | nil => rfl
    | cons b q =>
      have hrest := ih q
      simp only [le, Bool.or_eq_true, Bool.and_eq_true, decide_eq_true_eq, beq_iff_eq] at hrest ⊢
      rcases Nat.lt_trichotomy a.index b.index with hlt | heq | hgt
      · exact .inl (.inl hlt)
      · exact hrest.imp (fun hle => .inr ⟨heq, hle⟩) fun hle => .inr ⟨heq.symm, hle⟩
      · exact .inr (.inl hgt)

theorem le_trans {p q r : Path} (h : p.le q = true) (h' : q.le r = true) : p.le r = true := by
  induction p generalizing q r with
  | nil => rfl
  | cons a p ih =>
    cases q with
    | nil => cases h
    | cons b q =>
      cases r with
      | nil => cases h'
      | cons c r =>
        have hrest := @ih q r
        simp only [le, Bool.or_eq_true, Bool.and_eq_true, decide_eq_true_eq, beq_iff_eq]
          at h h' ⊢
        rcases h with h | ⟨h, hp⟩ <;> rcases h' with h' | ⟨h', hq⟩
        · exact .inl (Nat.lt_trans h h')
        · exact .inl (h' ▸ h)
        · exact .inl (h ▸ h')
        · exact .inr ⟨h.trans h', hrest hp hq⟩

theorem le_antisymm {p q : Path} (h : p.le q = true) (h' : q.le p = true) : p = q := by
  induction p generalizing q with
  | nil =>
    cases q with
    | nil => rfl
    | cons b q => cases h'
  | cons a p ih =>
    cases q with
    | nil => cases h
    | cons b q =>
      simp only [le, Bool.or_eq_true, Bool.and_eq_true, decide_eq_true_eq, beq_iff_eq] at h h'
      have hindex : a.index = b.index := by omega
      have hkind : a = b := by
        cases a
        cases b
        exact congrArg TokenKind.mk hindex
      have hlt := Nat.lt_irrefl a.index
      rw [hkind, ih ((h.resolve_left (hindex ▸ hlt)).2) ((h'.resolve_left (hindex ▸ hlt)).2)]

/-- The list is in order, and holds no path twice. -/
def Ordered (paths : List Path) : Prop := paths.Pairwise fun p q => p.le q = true ∧ p ≠ q

theorem ordered_singleton (p : Path) : Ordered [p] := List.pairwise_singleton _ _

/-! ## Sorting -/

theorem mem_dropRepeats {w : Path} (paths : List Path) : w ∈ dropRepeats paths ↔ w ∈ paths := by
  fun_induction dropRepeats paths with
  | case1 p q rest hpq ih => 
    rw [ih, beq_iff_eq.mp hpq]
    simp
  | case2 p q rest hpq ih => rw [List.mem_cons, ih, List.mem_cons (a := w) (b := p)]
  | case3 paths _ => rfl

/-- Of a list in order, the paths that equal the one before them are those that occur again. -/
theorem ordered_dropRepeats {paths : List Path} (h : paths.Pairwise fun p q => p.le q = true) :
    Ordered (dropRepeats paths) := by
  fun_induction dropRepeats paths with
  | case1 p q rest hpq ih => exact ih h.of_cons
  | case2 p q rest hpq ih =>
    refine List.pairwise_cons.mpr ⟨fun w hw => ?_, ih h.of_cons⟩
    have hmem := (mem_dropRepeats _).mp hw
    have hle := List.rel_of_pairwise_cons h hmem
    refine ⟨hle, ?_⟩
    rintro rfl
    have hqp : q.le p = true := by
      rcases List.mem_cons.mp hmem with rfl | hmem
      · exact le_refl p
      · exact List.rel_of_pairwise_cons h.of_cons hmem
    have heq := le_antisymm (List.rel_of_pairwise_cons h List.mem_cons_self) hqp
    exact hpq (beq_iff_eq.mpr heq)
  | case3 paths hshort =>
    match paths, hshort with
    | [], _ => exact .nil
    | [p], _ => exact ordered_singleton p
    | p :: q :: rest, hshort => exact (hshort p q rest rfl).elim

@[simp] theorem mem_sorted {w : Path} (paths : List Path) : w ∈ sorted paths ↔ w ∈ paths := by
  rw [sorted, mem_dropRepeats, List.mem_mergeSort]

theorem ordered_sorted (paths : List Path) : Ordered (sorted paths) := by
  apply ordered_dropRepeats
  apply List.pairwise_mergeSort
  · exact fun _ _ _ h h' => le_trans h h'
  · exact le_total

end Path

end Palette
