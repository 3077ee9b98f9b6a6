import Mathlib.Data.List.Forall2
import Palette.Proofs.Vocabulary.Built

/-!
# Vocabularies by their definitions

The types of a vocabulary are those that were defined, in the same order: their names, tags,
categories and the like are the ones that were asked for. So what fits what, and which kinds the
lexer looks for, can be read off the definitions, and so can whether there is a vocabulary at all.

Main statements: `Vocabulary.forall₂_ofDefs`, `Vocabulary.fits_ofDefs` and
`Vocabulary.exists_ofDefs`.
-/

namespace Palette

/-- Lists that are related have related elements at the same places. -/
theorem rel_getElem?_of_forall₂ {α β : Type} {R : α → β → Prop} {l : List α} {l' : List β}
    (h : List.Forall₂ R l l') (i : Nat) : Option.Rel R l[i]? l'[i]? := by
  induction h generalizing i with
  | nil => exact .none
  | cons hr _ ih =>
    cases i with
    | zero => exact .some hr
    | succ i => exact ih i

namespace VocabularyBuilder

theorem forall₂_foldlM {defs : List TokenDef} {b b' : VocabularyBuilder}
    (h : defs.foldlM (fun b d => do return (← b.define d).2) b = .ok b') :
    ∃ ts, List.Forall₂ TokenDef.Defines defs ts ∧ b'.types.toList = b.types.toList ++ ts := by
  induction defs generalizing b with
  | nil =>
    cases h
    exact ⟨[], .nil, (List.append_nil _).symm⟩
  | cons d defs ih =>
    rw [List.foldlM_cons] at h
    cases hd : b.define d with
    | error e =>
      rw [hd] at h
      cases h
    | ok r =>
      rw [hd] at h
      obtain ⟨t, ht, htypes, -⟩ := exists_push_of_defineBy hd
      obtain ⟨ts, hts, htypes'⟩ := ih h
      refine ⟨t :: ts, .cons ht hts, ?_⟩
      rw [htypes', htypes, Array.toList_push, List.append_assoc]
      rfl

end VocabularyBuilder

namespace Vocabulary

variable {defs : List TokenDef} {v : Vocabulary}

/-- **The types are those that were defined.** -/
theorem forall₂_ofDefs (h : ofDefs defs = .ok v) :
    List.Forall₂ TokenDef.Defines defs v.types.toList := by
  obtain ⟨b, hb, rfl⟩ := exists_builder_of_ofDefs h
  obtain ⟨ts, hts, htypes⟩ := VocabularyBuilder.forall₂_foldlM hb
  have htypes' : b.build.types.toList = ts := htypes
  rwa [htypes']

/-- A type is found under its kind just when it was defined there. -/
theorem type?_ofDefs (h : ofDefs defs = .ok v) (kind : TokenKind) :
    Option.Rel TokenDef.Defines defs[kind.index]? (v.type? kind) := by
  rw [type?, ← Array.getElem?_toList]
  exact rel_getElem?_of_forall₂ (forall₂_ofDefs h) kind.index

/-- **What fits what can be read off the definitions.** -/
theorem fits_ofDefs (h : ofDefs defs = .ok v) (actual expected : TokenKind) :
    v.fits actual expected = (actual == expected ||
      (defs[actual.index]?).any (·.categories.contains expected)) := by
  have htype := type?_ofDefs h actual
  rw [fits]
  generalize defs[actual.index]? = d at htype ⊢
  generalize v.type? actual = t at htype ⊢
  cases htype with
  | none => rfl
  | some hd => rw [Option.any_some, Option.any_some, hd.categories]

/-- The kinds that the lexer looks for are those that were defined with a pattern. -/
theorem exists_def_of_mem_matchable (h : ofDefs defs = .ok v) {kind : TokenKind}
    (hkind : kind ∈ v.matchable) : ∃ d, defs[kind.index]? = some d ∧ d.pattern.isSome := by
  have hvoc := consistent_ofDefs h
  obtain ⟨b, -, rfl⟩ := exists_builder_of_ofDefs h
  obtain ⟨t, ht, rfl⟩ := List.mem_map.mp hkind
  obtain ⟨ht, hconcrete⟩ := List.mem_filter.mp ht
  obtain ⟨i, hi⟩ := List.mem_iff_getElem?.mp ht
  have hfound : b.build.type? ⟨i⟩ = some t := by rwa [type?, ← Array.getElem?_toList]
  have hplace : t.kind = ⟨i⟩ := hvoc.kind_of_type? hfound
  have htype := type?_ofDefs h ⟨i⟩
  rw [hfound] at htype
  rw [hplace]
  generalize defs[(⟨i⟩ : TokenKind).index]? = d at htype ⊢
  cases htype with
  | some hd =>
    refine ⟨_, rfl, ?_⟩
    rw [hd.isCategory, Bool.not_eq_true', Option.isNone_eq_false_iff] at hconcrete
    exact hconcrete

end Vocabulary

/-! ## Definitions that succeed -/

/-- Whether the definitions pass the checks of names and categories behind the earlier ones. -/
def TokenDef.passBehind (earlier : List TokenDef) : List TokenDef → Bool
  | [] => true
  | d :: rest =>
    earlier.length < maxTypes && !(earlier.map (·.name)).contains d.name &&
      d.categories.all (fun c => (earlier[c.index]?).any (·.pattern.isNone)) &&
      passBehind (earlier ++ [d]) rest

/-- Whether the pattern of the definition, if it has one, passes its check. -/
def TokenDef.patternPasses (d : TokenDef) : Bool :=
  d.pattern.all fun source => (Pattern.compile? source).any (!·.matchesEmpty)

namespace VocabularyBuilder

variable {b : VocabularyBuilder} {earlier : List TokenDef} {d : TokenDef}

/-- The builder holds what was defined so far. -/
structure Holds (b : VocabularyBuilder) (earlier : List TokenDef) : Prop where
  types : List.Forall₂ TokenDef.Defines earlier b.types.toList
  names : ∀ name, b.byName.contains name = true ↔ name ∈ earlier.map (·.name)

theorem Holds.size_eq (h : b.Holds earlier) : b.types.size = earlier.length := by
  rw [h.types.length_eq, Array.length_toList]

theorem Holds.categoryError?_eq_none (h : b.Holds earlier) {name : String}
    {categories : List TokenKind}
    (hc : categories.all (fun c => (earlier[c.index]?).any (·.pattern.isNone)) = true) :
    categoryError? b.types name categories = none := by
  induction categories with
  | nil => rfl
  | cons c rest ih =>
    rw [List.all_cons, Bool.and_eq_true] at hc
    have hrel : Option.Rel TokenDef.Defines earlier[c.index]? b.types[c.index]? := by
      rw [← Array.getElem?_toList]
      exact rel_getElem?_of_forall₂ h.types c.index
    rw [categoryError?]
    generalize earlier[c.index]? = definition at hc hrel
    generalize b.types[c.index]? = type at hrel
    cases hrel with
    | none => cases hc.1
    | some hd =>
      rw [Option.any_some] at hc
      simp only [hd.isCategory, hc.1, if_true]
      exact ih hc.2

theorem exists_checkPattern (h : d.patternPasses = true) :
    ∃ pattern, checkPattern Pattern.compile? d.name d.pattern = .ok pattern := by
  rw [TokenDef.patternPasses] at h
  cases hd : d.pattern with
  | none => exact ⟨none, rfl⟩
  | some source =>
    rw [hd, Option.all_some] at h
    obtain ⟨search, hsearch, hempty⟩ := (Option.any_eq_true _ _).mp h
    rw [Bool.not_eq_true'] at hempty
    refine ⟨some search, ?_⟩
    simp [checkPattern, hsearch, hempty]

/-- A definition that passes its checks succeeds. -/
theorem Holds.exists_define (h : b.Holds earlier) (hroom : earlier.length < maxTypes)
    (hname : d.name ∉ earlier.map (·.name))
    (hc : d.categories.all (fun c => (earlier[c.index]?).any (·.pattern.isNone)) = true)
    (hpattern : d.patternPasses = true) :
    ∃ kind b', b.define d = .ok (kind, b') ∧ b'.Holds (earlier ++ [d]) := by
  obtain ⟨pattern, hcheck⟩ := exists_checkPattern hpattern
  have hfresh : b.byName.contains d.name = false :=
    Bool.eq_false_iff.mpr fun hmem => hname ((h.names _).mp hmem)
  refine ⟨⟨b.types.size⟩,
    ⟨b.types.push ⟨⟨b.types.size⟩, d.name, pattern, d.tags, d.skipped, d.categories⟩,
      b.byName.insert d.name ⟨b.types.size⟩⟩, ?_, ?_, fun name => ?_⟩
  · have hsize : ¬b.types.size ≥ maxTypes := Nat.not_le.mpr (h.size_eq ▸ hroom)
    simp only [define, defineBy, hfresh, Bool.false_eq_true, if_false, if_neg hsize,
      h.categoryError?_eq_none hc, hcheck]
  · rw [Array.toList_push]
    exact List.rel_append h.types (.cons ⟨rfl, rfl, rfl, rfl, (of_checkPattern hcheck).1⟩ .nil)
  · rw [Std.HashMap.contains_insert, Bool.or_eq_true, h.names, beq_iff_eq, List.map_append,
      List.mem_append, or_comm, List.map_singleton, List.mem_singleton, eq_comm]

theorem Holds.exists_foldlM {defs : List TokenDef} (h : b.Holds earlier)
    (hdefs : TokenDef.passBehind earlier defs = true)
    (hpatterns : ∀ d ∈ defs, d.patternPasses = true) :
    ∃ b', defs.foldlM (fun b d => do return (← b.define d).2) b = .ok b' := by
  induction defs generalizing b earlier with
  | nil => exact ⟨b, rfl⟩
  | cons d rest ih =>
    rw [List.forall_mem_cons] at hpatterns
    simp only [TokenDef.passBehind, Bool.and_eq_true, decide_eq_true_eq, Bool.not_eq_true'] at hdefs
    obtain ⟨⟨⟨hroom, hname⟩, hcategories⟩, hrest⟩ := hdefs
    obtain ⟨kind, b', hdefine, hb'⟩ := h.exists_define hroom (by simpa using hname) hcategories
      hpatterns.1
    obtain ⟨b'', hb''⟩ := ih hb' hrest hpatterns.2
    refine ⟨b'', ?_⟩
    rw [List.foldlM_cons, hdefine]
    exact hb''

end VocabularyBuilder

/-- **Definitions that pass all checks make up a vocabulary.** -/
theorem Vocabulary.exists_ofDefs {defs : List TokenDef} (hdefs : TokenDef.passBehind [] defs = true)
    (hpatterns : ∀ d ∈ defs, d.patternPasses = true) : ∃ v, ofDefs defs = .ok v := by
  have hempty : VocabularyBuilder.empty.Holds [] :=
    ⟨.nil, fun _ => by simp [VocabularyBuilder.empty]⟩
  obtain ⟨b, hb⟩ := hempty.exists_foldlM hdefs hpatterns
  exact ⟨b.build, by rw [ofDefs, hb]; rfl⟩

end Palette
