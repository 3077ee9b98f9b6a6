import Mathlib.Data.List.Nodup
import Palette.Vocabulary

/-!
# Consistent vocabularies

A vocabulary comes about by definitions, each of them checked. Every part of the library finds a
type by its kind and trusts what it finds there: that the type has this kind, that the categories it
names are categories and were there before it, that no type is taken for the end of the input, and
that a name leads to the type that has it (`VocabularyBuilder.Consistent`). A definition that
succeeds keeps all of this, whatever engine compiles its pattern.

A finished vocabulary is consistent if its builder is. The recognizer relies on little of it: the
end of the input is no type, so nothing but itself stands for it, and the kind of a type is its
place.

Main statement: `VocabularyBuilder.Consistent.define`.
-/

namespace Palette

/-- The type is what the definition asks for. -/
structure TokenDef.Defines (d : TokenDef) (t : TokenType) : Prop where
  name : t.name = d.name
  tags : t.tags = d.tags
  skipped : t.skipped = d.skipped
  categories : t.categories = d.categories
  isCategory : t.isCategory = d.pattern.isNone

namespace VocabularyBuilder

/-- A pattern that passes its check is what the engine made of it; where there was none, there is
none. -/
theorem of_checkPattern {compile : Engine} {name : String} {source : Option String}
    {pattern : Option Search} (h : checkPattern compile name source = .ok pattern) :
    pattern.isNone = source.isNone ∧
      ∀ search ∈ pattern, ∃ source', compile source' = some search := by
  unfold checkPattern at h
  split at h
  · cases h
    exact ⟨rfl, nofun⟩
  · next source' =>
    split at h
    · cases h
    · next search hcompile =>
      split at h
      · cases h
      · cases h
        exact ⟨rfl, fun _ hsearch => ⟨source', Option.mem_some.mp hsearch ▸ hcompile⟩⟩

/-- Whoever passes the check of categories names categories that are there. -/
theorem exists_of_categoryError? {types : Array TokenType} {name : String}
    {categories : List TokenKind} (h : categoryError? types name categories = none) :
    ∀ c ∈ categories, ∃ t, types[c.index]? = some t ∧ t.isCategory = true := by
  induction categories with
  | nil => exact fun c hc => nomatch hc
  | cons first rest ih =>
    rw [categoryError?] at h
    split at h
    · cases h
    · next t ht =>
      split at h
      · next hcategory =>
        intro c hc
        rcases List.mem_cons.mp hc with rfl | hc
        · exact ⟨t, ht, hcategory⟩
        · exact ih h c hc
      · cases h

section

variable {compile : Engine} {b b' : VocabularyBuilder} {d : TokenDef} {kind : TokenKind}

/-- A definition that succeeds has passed all checks, and puts a type behind the others and its name
into the table. -/
theorem exists_of_defineBy (h : b.defineBy compile d = .ok (kind, b')) :
    ∃ pattern, b.byName.contains d.name = false ∧ b.types.size < maxTypes ∧
      categoryError? b.types d.name d.categories = none ∧
      checkPattern compile d.name d.pattern = .ok pattern ∧ kind = ⟨b.types.size⟩ ∧
      b' = ⟨b.types.push ⟨kind, d.name, pattern, d.tags, d.skipped, d.categories⟩,
        b.byName.insert d.name kind⟩ := by
  unfold defineBy at h
  split at h
  · cases h
  · next hname =>
    split at h
    · cases h
    · next hroom =>
      split at h
      · cases h
      · next hcategories =>
        split at h
        · cases h
        · next pattern hpattern =>
          cases h
          exact ⟨pattern, Bool.eq_false_iff.mpr hname, Nat.lt_of_not_le hroom, hcategories,
            hpattern, rfl, rfl⟩

/-- A definition that succeeds puts the type it asks for behind the others. -/
theorem exists_push_of_defineBy (h : b.defineBy compile d = .ok (kind, b')) :
    ∃ type, d.Defines type ∧ b'.types = b.types.push type ∧
      ∀ search ∈ type.pattern, ∃ source', compile source' = some search := by
  obtain ⟨pattern, -, -, -, hpattern, rfl, rfl⟩ := exists_of_defineBy h
  obtain ⟨hnone, hcompiled⟩ := of_checkPattern hpattern
  exact ⟨⟨⟨b.types.size⟩, d.name, pattern, d.tags, d.skipped, d.categories⟩,
    ⟨rfl, rfl, rfl, rfl, hnone⟩, rfl, hcompiled⟩

end

/-- What every definition that succeeds keeps, any number of them keeps. -/
theorem foldlM_define {P : VocabularyBuilder → Prop}
    (hstep : ∀ (b b' : VocabularyBuilder) (d : TokenDef) (kind : TokenKind), P b →
      b.define d = .ok (kind, b') → P b') :
    ∀ (defs : List TokenDef) (b b' : VocabularyBuilder), P b →
      defs.foldlM (fun b d => do return (← b.define d).2) b = .ok b' → P b'
  | [], b, b', hb, h => by cases h; exact hb
  | d :: defs, b, b', hb, h => by
    rw [List.foldlM_cons] at h
    cases hd : b.define d with
    | error e => rw [hd] at h; cases h
    | ok r =>
      rw [hd] at h
      exact foldlM_define hstep defs r.2 b' (hstep b r.2 d r.1 hb hd) h

/-! ## Consistency -/

/-- Kinds, names and categories lead to the types that they belong to. -/
structure Consistent (b : VocabularyBuilder) : Prop where
  /-- A type has its place for a kind. -/
  kind : ∀ (i : Nat) (t : TokenType), b.types[i]? = some t → t.kind = ⟨i⟩
  /-- No type has the kind of the end of the input. -/
  room : b.types[TokenKind.endOfInput.index]? = none
  names : (b.types.toList.map (·.name)).Nodup
  /-- The table leads from the name of every type to its kind, and has no other names. -/
  table : ∀ (name : String) (kind : TokenKind),
    b.byName[name]? = some kind ↔ ∃ t, b.types[kind.index]? = some t ∧ t.name = name
  /-- What a type lists as its categories are categories, and stand before it. -/
  categories : ∀ (i : Nat) (t : TokenType), b.types[i]? = some t → ∀ c ∈ t.categories,
    c.index < i ∧ ∃ category, b.types[c.index]? = some category ∧ category.isCategory = true

theorem consistent_empty : empty.Consistent where
  kind i t ht := by cases ht
  room := rfl
  names := List.nodup_nil
  table name kind := by simp [empty]
  categories i t ht := by cases ht

namespace Consistent

variable {compile : Engine} {b b' : VocabularyBuilder} {d : TokenDef} {kind : TokenKind}

theorem contains_iff (h : b.Consistent) (name : String) :
    b.byName.contains name = true ↔
      ∃ (i : Nat) (t : TokenType), b.types[i]? = some t ∧ t.name = name := by
  rw [Std.HashMap.contains_eq_isSome_getElem?, Option.isSome_iff_exists]
  constructor
  · rintro ⟨kind, hkind⟩
    exact ⟨kind.index, (h.table name kind).mp hkind⟩
  · rintro ⟨i, t, ht⟩
    exact ⟨⟨i⟩, (h.table name ⟨i⟩).mpr ⟨t, ht⟩⟩

/-- What is found in a builder is found there with one more type behind it. -/
theorem getElem?_push_of_some {types : Array TokenType} {i : Nat} {t : TokenType}
    (h : types[i]? = some t) (last : TokenType) :
    i < types.size ∧ (types.push last)[i]? = some t := by
  obtain ⟨hi, -⟩ := Array.getElem?_eq_some_iff.mp h
  exact ⟨hi, by rw [Array.getElem?_push, if_neg (Nat.ne_of_lt hi), h]⟩

/-- **A definition that succeeds keeps a builder consistent.** -/
theorem define (h : b.Consistent) (hd : b.defineBy compile d = .ok (kind, b')) :
    b'.Consistent := by
  obtain ⟨pattern, hname, hroom, hcategories, -, rfl, rfl⟩ := exists_of_defineBy hd
  have hfresh : ∀ (i : Nat) (t : TokenType), b.types[i]? = some t → t.name ≠ d.name := by
    intro i t ht heq
    simp [(h.contains_iff d.name).mpr ⟨i, t, ht, heq⟩] at hname
  refine ⟨fun i t ht => ?_, ?_, ?_, fun name kind => ?_, fun i t ht c hc => ?_⟩
  · rw [Array.getElem?_push] at ht
    split at ht
    · next hlast =>
      obtain rfl := Option.some.inj ht
      rw [hlast]
    · exact h.kind i t ht
  · refine Array.getElem?_eq_none ?_
    rw [Array.size_push]
    exact hroom
  · rw [Array.toList_push, List.map_append]
    refine List.nodup_append.mpr ⟨h.names, List.nodup_singleton _, fun x hx y hy heq => ?_⟩
    obtain ⟨t, ht, rfl⟩ := List.mem_map.mp hx
    obtain ⟨i, hi⟩ := List.mem_iff_getElem?.mp ht
    rw [Array.getElem?_toList] at hi
    exact hfresh i t hi (heq.trans (List.mem_singleton.mp hy))
  · rw [Std.HashMap.getElem?_insert, Array.getElem?_push]
    by_cases hlast : kind.index = b.types.size
    · -- the kind of the new type, which no name led to before
      have hunused : b.byName[name]? ≠ some kind := fun hfound => by
        obtain ⟨t, ht, -⟩ := (h.table name kind).mp hfound
        exact Nat.ne_of_lt (getElem?_push_of_some ht t).1 hlast
      have hkind : kind = ⟨b.types.size⟩ := congrArg TokenKind.mk hlast
      rw [if_pos hlast]
      by_cases hsame : d.name = name
      · simp [hsame, hkind]
      · simp [hsame, hunused]
    · have hold := h.table name kind
      rw [if_neg hlast]
      by_cases hsame : d.name = name
      · have hother : (⟨b.types.size⟩ : TokenKind) ≠ kind := fun heq => hlast (heq ▸ rfl)
        have hnone : ¬ ∃ t, b.types[kind.index]? = some t ∧ t.name = name := by
          rintro ⟨t, ht, rfl⟩
          exact hfresh _ t ht hsame.symm
        simp only [hsame, beq_self_eq_true, if_true, Option.some.injEq, hother, hnone]
      · simpa [hsame] using hold
  · have hthere : c.index < i ∧ ∃ category, b.types[c.index]? = some category ∧
        category.isCategory = true := by
      rw [Array.getElem?_push] at ht
      split at ht
      · next hlast =>
        obtain rfl := Option.some.inj ht
        obtain ⟨category, hfound, hcategory⟩ := exists_of_categoryError? hcategories c hc
        exact ⟨hlast ▸ (getElem?_push_of_some hfound category).1, category, hfound, hcategory⟩
      · exact h.categories i t ht c hc
    obtain ⟨hbefore, category, hfound, hcategory⟩ := hthere
    exact ⟨hbefore, category, (getElem?_push_of_some hfound _).2, hcategory⟩

end Consistent

end VocabularyBuilder

namespace Vocabulary

/-- A vocabulary is consistent if its builder was. -/
def Consistent (v : Vocabulary) : Prop := ∃ b : VocabularyBuilder, b.Consistent ∧ v = b.build

theorem exists_builder_of_ofDefs {defs : List TokenDef} {v : Vocabulary}
    (h : ofDefs defs = .ok v) :
    ∃ b, defs.foldlM (fun b d => do return (← b.define d).2) VocabularyBuilder.empty = .ok b ∧
      v = b.build := by
  unfold ofDefs at h
  cases hf : (defs.foldlM (fun b d => do return (← b.define d).2) VocabularyBuilder.empty :
      Except VocabularyError VocabularyBuilder) with
  | error e => rw [hf] at h; cases h
  | ok b =>
    rw [hf] at h
    cases h
    exact ⟨b, rfl, rfl⟩

/-- **What definitions lead to is consistent.** -/
theorem consistent_ofDefs {defs : List TokenDef} {v : Vocabulary} (h : ofDefs defs = .ok v) :
    v.Consistent := by
  obtain ⟨b, hb, rfl⟩ := exists_builder_of_ofDefs h
  exact ⟨b, VocabularyBuilder.foldlM_define (fun _ _ _ _ h hd => h.define hd) defs .empty b
    VocabularyBuilder.consistent_empty hb, rfl⟩

namespace Consistent

variable {v : Vocabulary}

theorem type?_endOfInput (h : v.Consistent) : v.type? .endOfInput = none := by
  obtain ⟨b, hb, rfl⟩ := h
  exact hb.room

/-- Nothing but itself stands for the end of the input, which is no type. -/
theorem eq_of_fits_endOfInput (h : v.Consistent) {kind : TokenKind}
    (hf : v.fits .endOfInput kind = true) : kind = .endOfInput := by
  simp only [fits, h.type?_endOfInput, Option.any_none, Bool.or_false, beq_iff_eq] at hf
  exact hf.symm

/-- The kind of a type is its place in the vocabulary. -/
theorem kind_of_type? (h : v.Consistent) {kind : TokenKind} {t : TokenType}
    (ht : v.type? kind = some t) : t.kind = kind := by
  obtain ⟨b, hb, rfl⟩ := h
  exact hb.kind kind.index t ht

end Consistent

/-- A type that is looked for has a matchable kind and a pattern. -/
theorem exists_of_mem_concrete {v : Vocabulary} {entry : TokenType × Search}
    (h : entry ∈ v.concrete) :
    ∃ kind ∈ v.matchable, v.type? kind = some entry.1 ∧ entry.1.pattern = some entry.2 := by
  obtain ⟨kind, hkind, hentry⟩ := List.mem_filterMap.mp h
  obtain ⟨t, ht, hpattern⟩ := Option.bind_eq_some_iff.mp hentry
  obtain ⟨search, hsearch, hpair⟩ := Option.bind_eq_some_iff.mp hpattern
  cases hpair
  exact ⟨kind, hkind, ht, hsearch⟩

/-! ## Two letters -/

/-- The search for a single character. -/
def searchFor (c : Char) : Search := (Automaton.ofPattern (.char (.single c))).find

/-- The type whose only piece is the given character. -/
def letterType (index : Nat) (name : String) (c : Char) : TokenType :=
  { kind := ⟨index⟩, name, pattern := some (searchFor c), tags := [], skipped := false,
    categories := [] }

/-- The vocabulary of the letters a and b. -/
def letters : Vocabulary :=
  { types := #[letterType 0 "A" 'a', letterType 1 "B" 'b']
    byName := ((∅ : Std.HashMap String TokenKind).insert "A" ⟨0⟩).insert "B" ⟨1⟩
    matchable := [⟨0⟩, ⟨1⟩] }

theorem checkPattern_letter {name source : String} {c : Char}
    (hread : Pattern.read? source = some (.char (.single c)))
    (hempty : (searchFor c).matchesEmpty = false) :
    VocabularyBuilder.checkPattern Pattern.compile? name (some source)
      = .ok (some (searchFor c)) := by
  have hcompile : Pattern.compile? source = some (searchFor c) := by
    rw [Pattern.compile?, hread]
    rfl
  simp only [VocabularyBuilder.checkPattern, hcompile, hempty, Bool.false_eq_true, if_false]

theorem checkPattern_a :
    VocabularyBuilder.checkPattern Pattern.compile? "A" (some "a") = .ok (some (searchFor 'a')) :=
  checkPattern_letter (by decide +kernel) (by cbv)

theorem checkPattern_b :
    VocabularyBuilder.checkPattern Pattern.compile? "B" (some "b") = .ok (some (searchFor 'b')) :=
  checkPattern_letter (by decide +kernel) (by cbv)

theorem ofDefs_letters :
    ofDefs [⟨"A", some "a", [], false, []⟩, ⟨"B", some "b", [], false, []⟩] = .ok letters := by
  simp [ofDefs, VocabularyBuilder.define, VocabularyBuilder.defineBy, VocabularyBuilder.empty,
    checkPattern_a, checkPattern_b, VocabularyBuilder.categoryError?, maxTypes,
    TokenKind.endOfInput, VocabularyBuilder.build, letters, letterType, TokenType.isCategory, bind,
    Except.bind, pure, Except.pure]

theorem consistent_letters : letters.Consistent := consistent_ofDefs ofDefs_letters

end Vocabulary

end Palette
