import Palette.Proofs.Vocabulary.Built

/-!
# Definitions that fail

A vocabulary is consistent after any number of definitions, whether they succeeded or not, since a
definition checks first and writes last. What makes the patterns into searches, and which patterns
it refuses, is left open.

That a failure leaves no trace would be no news of `defineBy`, which gives a builder back only if it
succeeds. So definitions are also seen as what changes a builder in place, where whatever was
written before a failure stays written (`VocabularyBuilder.defineInPlace`).

Main statement: `VocabularyBuilder.consistent_defined`.
-/

namespace Palette

namespace VocabularyBuilder

/-! ## Definitions in place -/

/-- Defines a type by changing the builder step by step. -/
def defineInPlace (compile : Engine) (d : TokenDef) :
    ExceptT VocabularyError (StateM VocabularyBuilder) TokenKind := do
  let b ← get
  if b.byName.contains d.name then
    throw (.duplicateName d.name)
  if b.types.size ≥ maxTypes then
    throw (.tooManyTypes maxTypes)
  if let some e := categoryError? b.types d.name d.categories then
    throw e
  let pattern ← ExceptT.mk (pure (checkPattern compile d.name d.pattern))
  let kind : TokenKind := ⟨b.types.size⟩
  modify fun b => { b with byName := b.byName.insert d.name kind }
  modify fun b =>
    { b with types := b.types.push ⟨kind, d.name, pattern, d.tags, d.skipped, d.categories⟩ }
  return kind

/-- The builder after a definition, failed or not. -/
def attempt (compile : Engine) (b : VocabularyBuilder) (d : TokenDef) : VocabularyBuilder :=
  ((defineInPlace compile d).run.run b).2

/-- The builder after some definitions, failed ones included. -/
def defined (compile : Engine) (defs : List TokenDef) : VocabularyBuilder :=
  defs.foldl (attempt compile) .empty

section

variable {compile : Engine} {b : VocabularyBuilder} {d : TokenDef}

/-- In place or not, a definition comes to the same. -/
theorem run_defineInPlace (compile : Engine) (b : VocabularyBuilder) (d : TokenDef) :
    (defineInPlace compile d).run.run b =
      match b.defineBy compile d with
      | .ok (kind, b') => (.ok kind, b')
      | .error e => (.error e, b) := by
  change ((if b.byName.contains d.name then _ else _ :
    ExceptT VocabularyError (StateM VocabularyBuilder) TokenKind)).run.run b = _
  by_cases hname : b.byName.contains d.name
  · rw [if_pos hname, defineBy, if_pos hname]
    rfl
  rw [if_neg hname]
  by_cases hroom : b.types.size ≥ maxTypes
  · rw [if_pos hroom, defineBy, if_neg hname, if_pos hroom]
    rfl
  rw [if_neg hroom, defineBy, if_neg hname, if_neg hroom]
  cases categoryError? b.types d.name d.categories with
  | some e => rfl
  | none =>
    cases checkPattern compile d.name d.pattern with
    | error e => rfl
    | ok pattern => rfl

/-- A definition that fails leaves no trace. -/
theorem attempt_of_error {e : VocabularyError}
    (h : ((defineInPlace compile d).run.run b).1 = .error e) : b.attempt compile d = b := by
  rw [attempt]
  rw [run_defineInPlace] at h ⊢
  cases hd : b.defineBy compile d with
  | ok r =>
    rw [hd] at h
    cases h
  | error e => rfl

/-- Every definition keeps a builder consistent, failed or not. -/
theorem Consistent.attempt (h : b.Consistent) (compile : Engine) (d : TokenDef) :
    (b.attempt compile d).Consistent := by
  rw [VocabularyBuilder.attempt, run_defineInPlace]
  cases hd : b.defineBy compile d with
  | ok r => exact h.define hd
  | error e => exact h

end

/-! ## Finished vocabularies -/

/-- The kinds of the concrete types, in order of definition. -/
def concreteKinds (b : VocabularyBuilder) : List TokenKind :=
  ((List.range b.types.size).map TokenKind.mk).filter fun kind =>
    (b.types[kind.index]?).any (·.pattern.isSome)

theorem Consistent.matchable_build {b : VocabularyBuilder} (h : b.Consistent) :
    b.build.matchable = b.concreteKinds := by
  have hkinds : b.types.toList.map (·.kind) = (List.range b.types.size).map TokenKind.mk := by
    refine List.ext_getElem? fun i => ?_
    rw [List.getElem?_map, List.getElem?_map, Array.getElem?_toList]
    cases ht : b.types[i]? with
    | none =>
      have hi := Array.getElem?_eq_none_iff.mp ht
      simp [hi]
    | some t =>
      obtain ⟨hi, -⟩ := Array.getElem?_eq_some_iff.mp ht
      simp [hi, h.kind i t ht]
  rw [concreteKinds, ← hkinds, List.filter_map]
  refine congrArg (List.map _) (List.filter_congr fun t ht => ?_)
  obtain ⟨i, hi⟩ := List.mem_iff_getElem?.mp ht
  rw [Array.getElem?_toList] at hi
  rw [Function.comp_apply, h.kind i t hi, hi, Option.any_some, TokenType.isCategory,
    Option.not_isNone]

/-- **A vocabulary stays consistent whatever is defined**, or fails to be, and whatever engine
compiles the patterns: a definition that fails leaves everything as it was, and the finished
vocabulary goes through its concrete types in order of definition. -/
theorem consistent_defined (compile : Engine) (defs : List TokenDef) :
    (defined compile defs).Consistent ∧
      (∀ d e b, (defineInPlace compile d).run.run (defined compile defs) = (.error e, b) →
        b = defined compile defs) ∧
      (defined compile defs).build.matchable = (defined compile defs).concreteKinds := by
  have hconsistent : (defined compile defs).Consistent :=
    List.foldlRecOn defs (attempt compile) consistent_empty fun _ h d _ => h.attempt compile d
  refine ⟨hconsistent, fun d e b hfailed => ?_, hconsistent.matchable_build⟩
  have hattempt := attempt_of_error (congrArg Prod.fst hfailed)
  rwa [attempt, hfailed] at hattempt

/-- A category and one of its members, and definitions that fail before, between and behind them. -/
theorem consistent_defined_refused :
    let defs : List TokenDef :=
      [⟨"A", some "a", [], false, [⟨0⟩]⟩, ⟨"Letter", none, [], false, []⟩,
        ⟨"Letter", some "b", [], false, []⟩, ⟨"A", some "a", [], true, [⟨0⟩]⟩]
    let member : TokenDef := ⟨"B", none, [], false, [⟨1⟩]⟩
    let b := defined Pattern.compile? defs
    b.Consistent ∧ b.types.toList.map (·.name) = ["Letter", "A"] ∧ b.build.matchable = [⟨1⟩] ∧
      b.attempt Pattern.compile? member = b := by
  intro defs member b
  obtain ⟨hconsistent, hfailed, hmatchable⟩ :
      b.Consistent ∧ _ ∧ b.build.matchable = b.concreteKinds :=
    consistent_defined Pattern.compile? defs
  have hcategory : checkPattern Pattern.compile? "Letter" none = .ok none := rfl
  have hdefined : b =
      ⟨#[⟨⟨0⟩, "Letter", none, [], false, []⟩,
          ⟨⟨1⟩, "A", some (Vocabulary.searchFor 'a'), [], true, [⟨0⟩]⟩],
        ((∅ : Std.HashMap String TokenKind).insert "Letter" ⟨0⟩).insert "A" ⟨1⟩⟩ := by
    simp [b, defs, defined, attempt, run_defineInPlace, defineBy, empty, categoryError?, maxTypes,
      TokenKind.endOfInput, TokenType.isCategory, Vocabulary.checkPattern_a, hcategory]
  have hmember : ((defineInPlace Pattern.compile? member).run.run b).1 =
      .error (.notACategory "B" "A") := by
    rw [run_defineInPlace, hdefined]
    simp [member, defineBy, categoryError?, maxTypes, TokenKind.endOfInput, TokenType.isCategory]
  refine ⟨hconsistent, by rw [hdefined]; rfl, by rw [hmatchable, hdefined]; rfl, ?_⟩
  exact hfailed member _ _ (Prod.ext hmember rfl)

end VocabularyBuilder

end Palette
