import Palette.Proofs.Grammar.Emptiness
import Palette.Proofs.Grammar.FullMatch
import Palette.Proofs.Grammar.Rewriting

/-!
# The alternative that derives what is left

Suppose that the tokens up to the end of the text are a word of one of the alternatives. Cut at the
depth of lookahead, the word is a path of it that fits as a whole. No other path that fits is
longer: a path is cut at that depth too, and none reaches beyond the last token, since nothing but
itself stands for the end of the input and static bodies do not ask for it. So the alternative is
the one that prevails. If no token is left the word is empty, no path starts with anything that is
ahead, and the alternative is the one that may be empty.

Main statement: `GrammarDef.selects_of_derives`.
-/

namespace Palette

/-! ## Words of kinds that are asked for -/

namespace Grammar

variable {g : Grammar} {fits : TokenKind → TokenKind → Bool} {ps : List Production}
  {u : List TokenKind}

/-- Behind a word of tokens there is one of the kinds that the terminals ask for. -/
theorem Derives.exists_asked (h : g.Derives fits ps u) :
    ∃ w, g.Derives (· == ·) ps w ∧ List.Forall₂ (fun kind asked => fits kind asked = true) u w := by
  induction h with
  | nil => exact ⟨[], .nil, .nil⟩
  | @terminal kind k ps u fit rest ih =>
    obtain ⟨w, hw, hfits⟩ := ih
    exact ⟨kind :: w, .terminal (beq_self_eq_true kind) hw, .cons fit hfits⟩
  | nonterminal rule inner rest ihinner ih =>
    obtain ⟨x, hx, hfits⟩ := ihinner
    obtain ⟨w, hw, hfits'⟩ := ih
    exact ⟨x ++ w, .nonterminal rule hx hw, List.rel_append hfits hfits'⟩
  | optionNone rest ih =>
    obtain ⟨w, hw, hfits⟩ := ih
    exact ⟨w, .optionNone hw, hfits⟩
  | optionSome inner rest ihinner ih =>
    obtain ⟨x, hx, hfits⟩ := ihinner
    obtain ⟨w, hw, hfits'⟩ := ih
    exact ⟨x ++ w, .optionSome hx hw, List.rel_append hfits hfits'⟩
  | manyDone rest ih =>
    obtain ⟨w, hw, hfits⟩ := ih
    exact ⟨w, .manyDone hw, hfits⟩
  | manyMore inner rest ihinner ih =>
    obtain ⟨x, hx, hfits⟩ := ihinner
    obtain ⟨w, hw, hfits'⟩ := ih
    exact ⟨x ++ w, .manyMore hx hw, List.rel_append hfits hfits'⟩
  | atLeastOne inner rest ihinner ih =>
    obtain ⟨x, hx, hfits⟩ := ihinner
    obtain ⟨w, hw, hfits'⟩ := ih
    exact ⟨x ++ w, .atLeastOne hx hw, List.rel_append hfits hfits'⟩
  | alternation chosen inner rest ihinner ih =>
    obtain ⟨x, hx, hfits⟩ := ihinner
    obtain ⟨w, hw, hfits'⟩ := ih
    exact ⟨x ++ w, .alternation chosen hx hw, List.rel_append hfits hfits'⟩

end Grammar

/-! ## What is left of the text -/

namespace RecognizerInput

variable {input : RecognizerInput} {s : Recognition} {path w : Path} {kind : TokenKind}

/-- The kinds of the tokens up to the end of the text. -/
def kindsLeft (input : RecognizerInput) (s : Recognition) : List TokenKind :=
  (input.tokens.toList.drop s.position).map (·.kind)

/-- What is ahead is one of the tokens that are left, or the end of the input. -/
theorem kind_ahead_succ (i : Nat) :
    (input.ahead s (i + 1)).kind = (input.kindsLeft s)[i]?.getD .endOfInput := by
  rw [ahead, kindsLeft, List.getElem?_map, List.getElem?_drop, Array.getElem?_toList,
    Nat.add_sub_cancel]
  cases input.tokens[s.position + i]? <;> rfl

/-- A beginning of a word that asks for what is left fits as a whole. -/
theorem fitsPath_take
    (h : List.Forall₂ (fun kind asked => input.vocabulary.fits kind asked = true)
      (input.kindsLeft s) w) (k : Nat) : input.FitsPath s (w.take k) := by
  intro i asked hasked
  have hlt : i < k := by
    have hlen := (List.getElem?_eq_some_iff.mp hasked).1
    rw [List.length_take] at hlen
    omega
  rw [List.getElem?_take_of_lt hlt] at hasked
  obtain ⟨kind, hkind, hfits⟩ := exists_left_of_forall₂ h hasked
  rwa [fitsAhead, kind_ahead_succ, hkind]

/-- A path that does not ask for the end of the input fits only as far as there are tokens left. -/
theorem FitsPath.length_le (hvoc : input.vocabulary.Consistent) (h : input.FitsPath s path)
    (hend : .endOfInput ∉ path) : path.length ≤ (input.kindsLeft s).length := by
  by_contra hlt
  rw [Nat.not_le] at hlt
  have hpath := List.getElem?_eq_getElem hlt
  have hfits := h _ _ hpath
  rw [fitsAhead, kind_ahead_succ, List.getElem?_eq_none (Nat.le_refl _)] at hfits
  exact hend (hvoc.eq_of_fits_endOfInput hfits ▸ List.mem_of_getElem? hpath)

/-- Nothing starts where no token is left. -/
theorem not_starts_of_kindsLeft_eq_nil (hvoc : input.vocabulary.Consistent)
    (hnil : input.kindsLeft s = []) (hend : .endOfInput ∉ path) : ¬input.Starts s path := by
  rintro ⟨kind, rest, rfl, hfits⟩
  have hone : input.FitsPath s [kind] := by
    rintro (_ | i) asked hasked
    · obtain rfl := Option.some.inj hasked
      exact hfits
    · cases hasked
  have hle := hone.length_le hvoc fun hmem =>
    hend (List.mem_cons.mpr (.inl (List.mem_singleton.mp hmem)))
  rw [hnil] at hle
  exact Nat.not_succ_le_zero 0 hle

end RecognizerInput

/-! ## The prediction -/

/-- Where nothing starts, the alternative is predicted that may be empty. -/
theorem RecognizerInput.predict_eq_of_mayBeEmpty {input : RecognizerInput} {s : Recognition}
    {table : DecisionTable} {v : Vocabulary} {i : Nat} (hapart : Unambiguous v table)
    (hno : ∀ j, ¬input.Starting s table j) (hempty : MayBeEmpty table i) :
    input.predict s table = some i := by
  cases hpredict : input.predict s table with
  | none => exact absurd hempty (predict_eq_none hpredict i).2
  | some j =>
    have hj : MayBeEmpty table j := (predict_eq_some hpredict).elim (absurd · (hno j)) And.right
    rw [mayBeEmpty_unique hapart hj hempty]

namespace Grammar

variable {g : Grammar} {k : Nat} {e : Decision} {table : DecisionTable} {input : RecognizerInput}
  {s : Recognition} {i : Fin e.alternatives.length}

/-- **The alternative that derives what is left is predicted.** -/
theorem IsTable.predict_of_derives (h : g.IsTable k e table) (hkind : e.kind = .alternation)
    (hk : 0 < k) (hapart : Unambiguous input.vocabulary table)
    (hvoc : input.vocabulary.Consistent) (htokens : input.Matchable)
    (hend : ∀ (j : Nat) (paths : List Path), table[j]? = some paths →
      ∀ w ∈ paths, .endOfInput ∉ w)
    (hderives : g.Derives input.vocabulary.fits (e.alternatives.get i) (input.kindsLeft s)) :
    input.predict s table = some i.val := by
  obtain ⟨w, hw, hasked⟩ := hderives.exists_asked
  have hopens : g.Opens k (e.alternatives.get i) (w.take k) :=
    (hw.opens (Nat.le_max_left w.length k)).take (Nat.le_max_right w.length k)
  cases w with
  | nil =>
    have hnil : input.kindsLeft s = [] := List.forall₂_nil_right_iff.mp hasked
    obtain ⟨paths, hpaths, hmem⟩ := h.exists_paths hkind i
    have hempty : [] ∈ paths := (hmem []).mpr (List.take_nil ▸ hopens)
    refine RecognizerInput.predict_eq_of_mayBeEmpty hapart (fun j => ?_) ⟨paths, hpaths, hempty⟩
    rintro ⟨paths', hpaths', path, hmem', hstarts⟩
    exact RecognizerInput.not_starts_of_kindsLeft_eq_nil hvoc hnil
      (hend j paths' hpaths' path hmem') hstarts
  | cons kind rest =>
    have hmatch : input.FullMatch s table i ((kind :: rest).take k).length :=
      (h.fullMatch_iff hkind i).mpr
        ⟨_, hopens, by simp [hk.ne'], rfl, RecognizerInput.fitsPath_take hasked k⟩
    refine RecognizerInput.predict_eq_of_fullMatch hmatch fun j m hle hother => ?_
    -- Neither the depth nor the tokens that are left admit a longer path.
    have ⟨paths, hpaths, path, hmem, _, hlen, hfits⟩ := hother
    have hleft := hfits.length_le hvoc (hend j paths hpaths path hmem)
    have hdepth : path.length ≤ k := by
      obtain ⟨paths', hpaths', hopens'⟩ :=
        h.exists_paths hkind ⟨j, h.lt_of_getElem? hkind hpaths⟩
      obtain rfl := Option.some.inj (hpaths.symm.trans hpaths')
      exact ((hopens' path).mp hmem).length_le
    have hsame : m = ((kind :: rest).take k).length := by
      rw [List.length_take, ← hasked.length_eq] at hle ⊢
      omega
    exact RecognizerInput.fullMatch_unique hvoc htokens hapart hother (hsame ▸ hmatch)

end Grammar

namespace GrammarDef

variable {τ : Type} [Inhabited τ] {d : GrammarDef τ} {config : ParserConfig} {p : Parser τ}

/--
**A choice goes to the alternative that derives what is left.**

At an alternation of an accepted grammar of static bodies, with any depth of lookahead: if the
tokens up to the end of the text are a word of an alternative, this one is selected, and they are a
word of no other.
-/
theorem selects_of_derives (hvoc : d.vocabulary.Consistent) (hstatic : d.IsStatic)
    (hp : d.analyse config = .ok p) {e : Decision} (he : e ∈ (recordRules d.rules).1.decisions)
    (hkind : e.kind = .alternation) (text : String) {tokens : List Token}
    (htokens : ∀ t ∈ tokens, t.kind ∈ d.vocabulary.matchable) {s : Recognition}
    (hs : s.stack.head? = some e.key.rule) {i : Fin e.alternatives.length}
    (h : (recordRules d.rules).1.Derives d.vocabulary.fits (e.alternatives.get i)
      ((tokens.drop s.position).map (·.kind))) :
    (p.input text tokens).Selects s e.key.site i ∧
      ∀ j, (recordRules d.rules).1.Derives d.vocabulary.fits (e.alternatives.get j)
        ((tokens.drop s.position).map (·.kind)) → j = i := by
  have hacc := accepted_of_analyse hp
  obtain ⟨table, htable, hexact, hapart⟩ := hacc.exists_table_ahead he text tokens hs
  have hvoc' : p.vocabulary.Consistent := hacc.vocabulary ▸ hvoc
  have hpredict (j : Fin e.alternatives.length)
      (hj : (recordRules d.rules).1.Derives d.vocabulary.fits (e.alternatives.get j)
        ((tokens.drop s.position).map (·.kind))) :
      (p.input text tokens).predict s table = some j.val := by
    rw [← hacc.vocabulary] at hj
    exact hexact.predict_of_derives hkind hacc.maxLookahead_pos hapart hvoc'
      (hacc.matchable_input text htokens)
      (fun _ _ hpaths => hexact.endOfInput_not_mem hstatic.listed (hstatic.listed_decision he)
        hpaths) hj
  refine ⟨.of_predict htable (hpredict i h), fun j hj => Fin.ext ?_⟩
  exact Option.some.inj ((hpredict j hj).symm.trans (hpredict i h))

/-! ## Beginnings -/

/-- The letters a and b, or the first one, or none of them. -/
def beginnings : GrammarDef Unit :=
  { vocabulary := Vocabulary.letters
    rules := [
      ⟨"beginning", Body.oneOf 0 () [
        do
          let _ ← Body.take ⟨0⟩
          let _ ← Body.take ⟨1⟩
          return (),
        do
          let _ ← Body.take ⟨0⟩
          return (),
        return ()]⟩] }

/-- The parser of beginnings, with two tokens of lookahead. -/
def beginningsParser : Parser Unit :=
  { vocabulary := Vocabulary.letters, rules := beginnings.rules,
    lookahead := [(⟨0, 0⟩, [[[⟨0⟩, ⟨1⟩]], [[⟨0⟩]], [[]]])],
    start := 0, config := { startRule := none, maxLookahead := 2, recovery := true } }

theorem analyse_beginnings : beginnings.analyse beginningsParser.config = .ok beginningsParser := by
  cbv

theorem isStatic_beginnings : beginnings.IsStatic := by
  have hletter (kind : TokenKind) (hkind : kind ≠ .endOfInput) :
      (Body.take kind : Body Unit Token).Makes [.consume kind] := .take hkind
  intro rule hrule
  obtain rfl := List.mem_singleton.mp hrule
  refine ⟨[.choose 0 [[.consume ⟨0⟩, .consume ⟨1⟩], [.consume ⟨0⟩], []]], .oneOf 0 () ?_⟩
  exact .cons ((hletter ⟨0⟩ (by decide)).bind fun _ => (hletter ⟨1⟩ (by decide)).bind fun _ =>
    .pure ()) (.cons ((hletter ⟨0⟩ (by decide)).bind fun _ => .pure ()) (.cons (.pure ()) .nil))

/-- The choice of beginnings. -/
def beginning : Decision :=
  ⟨0, ⟨0, 0⟩, .alternation, [[.terminal ⟨0⟩, .terminal ⟨1⟩], [.terminal ⟨0⟩], []]⟩

/-- In front of the letter a alone the second beginning is selected, and behind it the empty one. -/
theorem selects_of_derives_beginnings :
    (beginningsParser.input "a" (Vocabulary.letters.tokenize "a").tokens).Selects
        { Recognition.start with stack := [0] } 0 (1 : Fin 3) ∧
      (beginningsParser.input "a" (Vocabulary.letters.tokenize "a").tokens).Selects
        { Recognition.start with position := 1, stack := [0] } 0 (2 : Fin 3) := by
  have hkinds : (Vocabulary.letters.tokenize "a").tokens.map (·.kind) = [⟨0⟩] := by cbv
  have hmatchable : ∀ t ∈ (Vocabulary.letters.tokenize "a").tokens,
      t.kind ∈ Vocabulary.letters.matchable :=
    fun t ht => Vocabulary.consistent_letters.kind_mem_matchable ht
  have hone : (recordRules beginnings.rules).1.Derives Vocabulary.letters.fits [.terminal ⟨0⟩]
      [⟨0⟩] := .terminal (by cbv) .nil
  refine ⟨(selects_of_derives (e := beginning) (i := (1 : Fin 3)) Vocabulary.consistent_letters
      isStatic_beginnings analyse_beginnings List.mem_cons_self rfl "a" hmatchable rfl ?_).1,
    (selects_of_derives (e := beginning) (i := (2 : Fin 3)) Vocabulary.consistent_letters
      isStatic_beginnings analyse_beginnings List.mem_cons_self rfl "a" hmatchable rfl ?_).1⟩
  · rw [Recognition.start, List.drop_zero, hkinds]
    exact hone
  · rw [List.map_drop, hkinds]
    exact .nil

end GrammarDef

end Palette
