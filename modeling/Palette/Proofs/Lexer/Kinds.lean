import Palette.Lexer.Basic
import Palette.Proofs.Vocabulary.Built

/-!
# The kinds of tokens

A scan looks for the concrete types only, so every token that the parser sees is of a concrete type
that is not skipped. Since the kind of a type is its place in the vocabulary, the kind of such a
token is one of the matchable ones, and what it fits is seen when two kinds are compared for
overlapping.

Main statements: `Vocabulary.exists_concrete_of_mem_tokenize` and
`Vocabulary.Consistent.kind_mem_matchable`.
-/

namespace Palette

/-! ## The types of the pieces -/

namespace Lexer

variable {types : List (TokenType × Search)} {type : TokenType}

theorem exists_mem_of_matchAt {before text : List Char} {offset length : Nat}
    {horizons horizons' : List Horizon}
    (h : matchAt before text offset types horizons = (some (type, length), horizons')) :
    ∃ search, (type, search) ∈ types := by
  induction types generalizing horizons horizons' with
  | nil =>
    rw [matchAt] at h
    · cases h
    · simp
  | cons entry types ih =>
    obtain ⟨t, search⟩ := entry
    cases horizons with
    | nil =>
      rw [matchAt] at h
      · cases h
      · simp
    | cons horizon horizons =>
      -- The type is taken here, or else one of the others is.
      have hcases : type = t ∨ (matchAt before text offset types horizons).1
          = some (type, length) := by
        simp only [matchAt] at h
        split at h
        · exact .inr (congrArg Prod.fst h)
        · split at h
          · split at h
            · cases h
              exact .inl rfl
            · exact .inr (congrArg Prod.fst h)
          · exact .inr (congrArg Prod.fst h)
          · exact .inr (congrArg Prod.fst h)
      rcases hcases with rfl | hothers
      · exact ⟨search, List.mem_cons_self⟩
      · obtain ⟨search', hsearch'⟩ := ih (Prod.ext hothers rfl)
        exact ⟨search', List.mem_cons_of_mem _ hsearch'⟩

theorem exists_mem_of_mem_scanFrom {horizons : List Horizon} {before : List Char} {offset : Nat}
    {start? : Option Nat} {text : List Char} {start : Nat} {image : List Char}
    (h : .token type start image ∈ scanFrom types horizons before offset start? text) :
    ∃ search, (type, search) ∈ types := by
  have hflush (start? : Option Nat) (stop : Nat) :
      .token type start image ∉ flush start? stop := by
    cases start? <;> simp [flush]
  fun_induction scanFrom types horizons before offset start? text with
  | case1 => exact absurd h (hflush _ _)
  | case2 horizons before offset start? c rest t length horizons' hmatch image' ih =>
    rcases List.mem_append.mp h with h | h
    · exact absurd h (hflush start? offset)
    · rcases List.mem_cons.mp h with h | h
      · obtain ⟨rfl, -⟩ := Piece.token.inj h
        exact exists_mem_of_matchAt hmatch
      · exact ih h
  | case3 horizons before offset start? c rest horizons' hmatch ih => exact ih h

end Lexer

/-! ## The kinds that the parser sees -/

theorem Piece.exists_of_parsed? {p : Piece} {t : Token} (h : p.parsed? = some t) :
    ∃ type start image, p = .token type start image ∧ type.skipped = false ∧
      t.kind = type.kind := by
  cases p with
  | unmatched start stop => cases h
  | token type start image =>
    rw [parsed?] at h
    split at h
    · cases h
    · next hskip =>
      cases h
      exact ⟨type, start, image, rfl, Bool.eq_false_iff.mpr hskip, rfl⟩

namespace Vocabulary

variable {v : Vocabulary}

/-- **Every token that the parser sees is of a concrete type that is not skipped.** -/
theorem exists_concrete_of_mem_tokenize {text : String} {t : Token}
    (h : t ∈ (v.tokenize text).tokens) :
    ∃ kind ∈ v.matchable, ∃ type, v.type? kind = some type ∧ type.skipped = false ∧
      t.kind = type.kind := by
  obtain ⟨p, hp, ht⟩ := List.mem_filterMap.mp h
  obtain ⟨type, start, image, rfl, hskip, hkind⟩ := Piece.exists_of_parsed? ht
  obtain ⟨search, hsearch⟩ := Lexer.exists_mem_of_mem_scanFrom hp
  obtain ⟨kind, hkind', htype, -⟩ := exists_of_mem_concrete hsearch
  exact ⟨kind, hkind', type, htype, hskip, hkind⟩

/-- **Every token that the parser sees is of a matchable kind.** -/
theorem Consistent.kind_mem_matchable (hv : v.Consistent) {text : String} {t : Token}
    (h : t ∈ (v.tokenize text).tokens) : t.kind ∈ v.matchable := by
  obtain ⟨kind, hkind, type, htype, -, ht⟩ := exists_concrete_of_mem_tokenize h
  rwa [ht, hv.kind_of_type? htype]

/-- Two kinds overlap if the same token, or the end of the input, fits both. -/
theorem Consistent.overlaps_of_fits (hv : v.Consistent) {kind a b : TokenKind}
    (hkind : kind ∈ v.matchable ∨ kind = .endOfInput) (ha : v.fits kind a = true)
    (hb : v.fits kind b = true) : v.overlaps a b = true := by
  rw [overlaps, Bool.or_eq_true]
  rcases hkind with hkind | rfl
  · exact .inr (List.any_eq_true.mpr ⟨kind, hkind, by rw [ha, hb]; rfl⟩)
  · rw [hv.eq_of_fits_endOfInput ha, hv.eq_of_fits_endOfInput hb]
    exact .inl (beq_self_eq_true _)

end Vocabulary

end Palette
