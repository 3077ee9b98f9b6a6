import Palette.Proofs.Grammar.Emptiness
import Palette.Proofs.Grammar.FullMatch
import Palette.Proofs.Grammar.Rewriting
import Palette.Proofs.Grammar.Rounds

/-!
# What is entered

Whether an option or a repetition is entered is a matter of the next token only. Their tables hold
the paths of the body that are not empty, however long they are; one of which the first kind fits is
enough, whether or not the rest of it does. And the kinds that paths begin with are the same for
every depth of lookahead: the terminals with which some sentential form of the body begins.

Main statement: `GrammarDef.enters_iff`.
-/

namespace Palette

/-! ## Beginnings of sentential forms -/

namespace Grammar

variable {g : Grammar} {k : Nat} {ps : List Production} {kind : TokenKind}

/-- Some sentential form of the sequence begins with the terminal. -/
def Begins (g : Grammar) (ps : List Production) (kind : TokenKind) : Prop :=
  ∃ rest, g.Reaches ps (.terminal kind :: rest)

theorem begins_iff_opens_one : g.Begins ps kind ↔ g.Opens 1 ps [kind] := by
  rw [Begins, opens_iff]
  constructor
  · exact fun h => .inr ⟨rfl, h⟩
  · rintro (⟨hlt, -⟩ | ⟨-, h⟩)
    · exact absurd hlt (Nat.lt_irrefl 1)
    · exact h

/-- **The terminals that paths begin with** are the same within every budget. -/
theorem begins_iff_opens (hg : g.Sound True) (hleft : g.leftRecursion = [])
    (hps : SoundSequence g.size True ps) (hk : 0 < k) :
    g.Begins ps kind ↔ ∃ rest, g.Opens k ps (kind :: rest) := by
  rw [begins_iff_opens_one]
  constructor
  · intro h
    obtain ⟨w, hw, hcut⟩ := h.exists_longer hg hleft hps hk
    cases w with
    | nil => cases hcut
    | cons kind' rest =>
      cases hcut
      exact ⟨rest, hw⟩
  · rintro ⟨rest, h⟩
    exact h.take hk

end Grammar

/-! ## Entering a body -/

namespace RecognizerInput

variable {input : RecognizerInput} {s : Recognition} {site : Site} {table : DecisionTable}
  {entered entered' : Prop}

/-- The body of a decision is entered if some path that is not empty starts with the next token. -/
theorem enters_iff_exists_starts (paths : List Path) :
    input.enters s [paths.filter (!·.isEmpty)] = true ↔ ∃ path ∈ paths, input.Starts s path := by
  have hstarting (j : Nat) : input.Starting s [paths.filter (!·.isEmpty)] j ↔
      j = 0 ∧ ∃ path ∈ paths, input.Starts s path := by
    constructor
    · rintro ⟨found, hfound, path, hmem, hstarts⟩
      obtain ⟨hj, rfl⟩ := List.getElem?_eq_some_iff.mp hfound
      obtain rfl : j = 0 := Nat.lt_one_iff.mp hj
      exact ⟨rfl, path, (List.mem_filter.mp hmem).1, hstarts⟩
    · rintro ⟨rfl, path, hmem, hstarts⟩
      refine ⟨_, rfl, path, List.mem_filter.mpr ⟨hmem, ?_⟩, hstarts⟩
      obtain ⟨kind, rest, rfl, -⟩ := hstarts
      rfl
  have hempty (j : Nat) : ¬MayBeEmpty [paths.filter (!·.isEmpty)] j := by
    rintro ⟨found, hfound, hmem⟩
    obtain ⟨hj, rfl⟩ := List.getElem?_eq_some_iff.mp hfound
    obtain rfl : j = 0 := Nat.lt_one_iff.mp hj
    cases (List.mem_filter.mp hmem).2
  rw [enters, beq_iff_eq]
  cases hpredict : input.predict s [paths.filter (!·.isEmpty)] with
  | none =>
    have hnot := mt (hstarting 0).mpr (predict_eq_none hpredict 0).1
    exact iff_of_false (Option.some_ne_none 0).symm fun h => hnot ⟨rfl, h⟩
  | some j =>
    obtain ⟨rfl, hstarts⟩ := (hstarting j).mp
      ((predict_eq_some hpredict).resolve_right fun h => hempty j h.2)
    exact iff_of_true rfl hstarts

/-- What is at the site is entered just when `entered` holds: an option runs its body, a repetition
begins another round, and one that asks for a round begins the first. Otherwise an option and a
repetition end here, and a round that is asked for is refused. -/
structure EntersIff (input : RecognizerInput) (s : Recognition) (site : Site)
    (entered : Prop) : Prop where
  option_entered : entered → ∀ {τ α β : Type} (find : String → Option RuleId)
    (invoke : RuleId → Recognition → Outcome τ) (steps : Nat) (body : Body τ β)
    (next : Option (Option β) → Body τ α),
    (Body.option site body next).run input find invoke steps s
      = (body.run input find invoke steps s).andThen fun v t =>
        (next (v.map some)).run input find invoke steps t
  option_left : ¬entered → ∀ {τ α β : Type} (find : String → Option RuleId)
    (invoke : RuleId → Recognition → Outcome τ) (steps : Nat) (body : Body τ β)
    (next : Option (Option β) → Body τ α),
    (Body.option site body next).run input find invoke steps s
      = (next (some none)).run input find invoke steps s
  round_entered : entered → ∀ {σ : Type} (round : σ → Recognition → Outcome σ) (steps : Nat)
    (a : σ), repeatRounds input site round (steps + 1) a s = (round a s).andThen fun
      | none, t => .finished none t
      | some a', t =>
        if t.position = s.position then .finished (some a') t
        else repeatRounds input site round steps a' t
  round_left : ¬entered → ∀ {σ : Type} (round : σ → Recognition → Outcome σ) (steps : Nat)
    (a : σ), repeatRounds input site round (steps + 1) a s = .finished (some a) s
  first_entered : entered → ∀ {τ α σ : Type} (find : String → Option RuleId)
    (invoke : RuleId → Recognition → Outcome τ) (steps : Nat) (a : σ) (round : σ → Body τ σ)
    (next : Option σ → Body τ α),
    (Body.atLeastOne site a round next).run input find invoke steps s
      = (repeatAfterOne input site (fun a t => (round a).run input find invoke steps t) steps a
          s).andThen fun v t => (next v).run input find invoke steps t
  first_refused : ¬entered → ∃ message, ∀ {τ α σ : Type} (find : String → Option RuleId)
    (invoke : RuleId → Recognition → Outcome τ) (steps : Nat) (a : σ) (round : σ → Body τ σ)
    (next : Option σ → Body τ α),
    (Body.atLeastOne site a round next).run input find invoke steps s
      = (next none).run input find invoke steps (input.report s .earlyExit message)

theorem EntersIff.of_table (htable : input.table? s site = some table)
    (h : input.enters s table = true ↔ entered) : input.EntersIff s site entered := by
  have hleft (hnot : ¬entered) : input.enters s table = false :=
    Bool.eq_false_iff.mpr (mt h.mp hnot)
  refine ⟨fun hentered => ?_, fun hnot => ?_, fun hentered => ?_, fun hnot => ?_,
    fun hentered => ?_, fun hnot => ?_⟩
  · intro τ α β find invoke steps body next
    simp only [Body.run, htable, h.mpr hentered, if_true]
  · intro τ α β find invoke steps body next
    simp only [Body.run, htable, hleft hnot, Bool.false_eq_true, if_false]
  · intro σ round steps a
    rw [repeatRounds, htable]
    exact if_pos (h.mpr hentered)
  · intro σ round steps a
    simp only [repeatRounds, htable, hleft hnot, Bool.false_eq_true, if_false]
  · intro τ α σ find invoke steps a round next
    exact Body.run_atLeastOne next (by simp [htable, h.mpr hentered])
  · refine ⟨"expected at least one iteration starting with " ++ input.expected table ++
      " but found " ++ input.found s, fun find invoke steps a round next => ?_⟩
    simp only [Body.run, htable, Option.filter_some, hleft hnot, Bool.not_false, if_true]

theorem EntersIff.congr (h : input.EntersIff s site entered) (hiff : entered ↔ entered') :
    input.EntersIff s site entered' :=
  propext hiff ▸ h

end RecognizerInput

namespace Grammar

variable {g : Grammar} {k : Nat} {e : Decision} {table : DecisionTable} {input : RecognizerInput}
  {s : Recognition}

/-- **The body is entered if the next token fits a terminal that begins a sentential form** of
it. -/
theorem IsTable.enters_iff_begins (h : g.IsTable k e table) (hkind : e.kind ≠ .alternation)
    (hk : 0 < k) (hg : g.Sound True) (hleft : g.leftRecursion = [])
    (he : SoundSequence g.size True (bodyOf e.alternatives)) :
    input.enters s table = true ↔
      ∃ kind, g.Begins (bodyOf e.alternatives) kind ∧ input.fitsAhead s 1 kind = true := by
  obtain ⟨enter, henter, rfl⟩ : ∃ enter, g.IsPathSet k (bodyOf e.alternatives) enter ∧
      table = [enter.filter (!·.isEmpty)] := by
    unfold IsTable at h
    cases hkind' : e.kind with
    | alternation => exact absurd hkind' hkind
    | option | many | atLeastOne => rwa [hkind'] at h
  rw [RecognizerInput.enters_iff_exists_starts]
  constructor
  · rintro ⟨_, hmem, kind, rest, rfl, hfits⟩
    have hopens := (henter.mem_iff _).mp hmem
    exact ⟨kind, (begins_iff_opens hg hleft he hk).mpr ⟨rest, hopens⟩, hfits⟩
  · rintro ⟨kind, hbegins, hfits⟩
    obtain ⟨rest, hopens⟩ := (begins_iff_opens hg hleft he hk).mp hbegins
    exact ⟨_, (henter.mem_iff _).mpr hopens, kind, rest, rfl, hfits⟩

end Grammar

namespace GrammarDef

variable {τ : Type} [Inhabited τ] {d : GrammarDef τ} {config : ParserConfig} {p : Parser τ}

/--
**Entering an option or a repetition depends on the next token only.**

Of an accepted grammar, the body of an option or a repetition is entered if and only if the next
token fits a terminal that begins a sentential form of the body. So it is entered all the same with
any depth of lookahead with which the grammar is accepted.
-/
theorem enters_iff (hp : d.analyse config = .ok p) {e : Decision}
    (he : e ∈ (recordRules d.rules).1.decisions) (hkind : e.kind ≠ .alternation) (text : String)
    (tokens : List Token) {s : Recognition} (hs : s.stack.head? = some e.key.rule) :
    (p.input text tokens).EntersIff s e.key.site
        (∃ kind, (recordRules d.rules).1.Begins (bodyOf e.alternatives) kind ∧
          (p.input text tokens).fitsAhead s 1 kind = true) ∧
      ∀ {k : Nat} {q : Parser τ}, d.analyse { config with maxLookahead := k } = .ok q →
        (q.input text tokens).EntersIff s e.key.site
          (∃ kind, (recordRules d.rules).1.Begins (bodyOf e.alternatives) kind ∧
            (p.input text tokens).fitsAhead s 1 kind = true) := by
  have hone {config : ParserConfig} {q : Parser τ} (hq : d.analyse config = .ok q) :
      (q.input text tokens).EntersIff s e.key.site
        (∃ kind, (recordRules d.rules).1.Begins (bodyOf e.alternatives) kind ∧
          (q.input text tokens).fitsAhead s 1 kind = true) := by
    have hacc := accepted_of_analyse hq
    have hg : (recordRules d.rules).1.Sound True := by
      have hsound := Grammar.sound_recordRules d.rules
      rwa [hacc.recorded, eq_self_iff_true] at hsound
    obtain ⟨table, htable, hexact, -⟩ := hacc.exists_table_ahead he text tokens hs
    have hbody : SoundSequence (recordRules d.rules).1.size True (bodyOf e.alternatives) :=
      (SoundSequence.singleton (hg.decisions e he)).body
    exact .of_table htable
      (hexact.enters_iff_begins hkind hacc.maxLookahead_pos hg hacc.leftRecursion hbody)
  refine ⟨hone hp, fun {k q} hq => (hone hq).congr ?_⟩
  have hvocabulary : q.vocabulary = p.vocabulary := by
    rw [(accepted_of_analyse hq).vocabulary, (accepted_of_analyse hp).vocabulary]
  have hfits (kind : TokenKind) : (q.input text tokens).fitsAhead s 1 kind
      = (p.input text tokens).fitsAhead s 1 kind := by
    simp only [RecognizerInput.fitsAhead, Parser.input, hvocabulary]
    rfl
  simp only [hfits]

/-! ## Rounds that begin in two ways -/

/-- Any number of letters b, each of them behind a letter a or not. -/
def marked : GrammarDef Unit :=
  { vocabulary := Vocabulary.letters
    rules := [
      ⟨"marked", Body.loop 0 () fun _ => do
        let _ ← Body.perhaps 1 (Body.take ⟨0⟩)
        let _ ← Body.take ⟨1⟩
        return ()⟩] }

/-- The parser of marked letters, with one token of lookahead. -/
def markedParser : Parser Unit :=
  { vocabulary := Vocabulary.letters, rules := marked.rules,
    lookahead := [(⟨0, 1⟩, [[[⟨0⟩]]]), (⟨0, 0⟩, [[[⟨0⟩], [⟨1⟩]]])],
    start := 0, config := { startRule := none, maxLookahead := 1, recovery := true } }

theorem analyse_marked : marked.analyse markedParser.config = .ok markedParser := by cbv

theorem isStatic_marked : marked.IsStatic := by
  intro rule hrule
  obtain rfl := List.mem_singleton.mp hrule
  refine ⟨[.many 0 [.option 1 [.consume ⟨0⟩], .consume ⟨1⟩]], .loop 0 () fun _ => ?_⟩
  exact (Body.Makes.perhaps 1 (.take (by decide))).bind fun _ =>
    (Body.Makes.take (by decide)).bind fun _ => .pure ()

/-- The optional letter a of a round. -/
def mark : Production := .decision 0 ⟨0, 1⟩ .option [[.terminal ⟨0⟩]]

/-- The repetition of marked letters. -/
def markedRounds : Decision := ⟨1, ⟨0, 0⟩, .many, [[mark, .terminal ⟨1⟩]]⟩

/-- Without a mark, a round is begun in front of the letter b, whatever the depth of lookahead, and
none at the end. -/
theorem enters_iff_marked :
    (markedParser.input "b" (Vocabulary.letters.tokenize "b").tokens).EntersIff
        { Recognition.start with stack := [0] } 0 True ∧
      (markedParser.input "b" (Vocabulary.letters.tokenize "b").tokens).EntersIff
        { Recognition.start with position := 1, stack := [0] } 0 False ∧
      ∃ q, marked.analyse { markedParser.config with maxLookahead := 2 } = .ok q ∧
        (q.input "b" (Vocabulary.letters.tokenize "b").tokens).EntersIff
          { Recognition.start with stack := [0] } 0 True := by
  have hmem : markedRounds ∈ (recordRules marked.rules).1.decisions :=
    List.mem_cons_of_mem _ List.mem_cons_self
  have hbegins : (recordRules marked.rules).1.Begins [mark, .terminal ⟨1⟩] ⟨1⟩ :=
    ⟨[], .head .optionNone (.refl _)⟩
  have hfits : (markedParser.input "b" (Vocabulary.letters.tokenize "b").tokens).fitsAhead
      { Recognition.start with stack := [0] } 1 ⟨1⟩ = true := by cbv
  have hend : (markedParser.input "b" (Vocabulary.letters.tokenize "b").tokens).ahead
      { Recognition.start with position := 1, stack := [0] } 1 = .endOfInput 1 := by cbv
  obtain ⟨q, hq⟩ : ∃ q, marked.analyse { markedParser.config with maxLookahead := 2 } = .ok q :=
    ⟨_, by cbv⟩
  obtain ⟨hone, hdeeper⟩ := enters_iff analyse_marked hmem (by decide) "b"
    (Vocabulary.letters.tokenize "b").tokens (s := { Recognition.start with stack := [0] }) rfl
  obtain ⟨hlast, -⟩ := enters_iff analyse_marked hmem (by decide) "b"
    (Vocabulary.letters.tokenize "b").tokens
    (s := { Recognition.start with position := 1, stack := [0] }) rfl
  refine ⟨hone.congr (iff_true_intro ⟨_, hbegins, hfits⟩), hlast.congr (iff_false_intro ?_), q, hq,
    (hdeeper hq).congr (iff_true_intro ⟨_, hbegins, hfits⟩)⟩
  rintro ⟨kind, hkind, hfits⟩
  rw [RecognizerInput.fitsAhead, hend] at hfits
  obtain rfl := Vocabulary.consistent_letters.eq_of_fits_endOfInput hfits
  exact (Grammar.begins_iff_opens_one.mp hkind).endOfInput_not_mem isStatic_marked.listed
    (isStatic_marked.listed_decision hmem).body List.mem_cons_self

end GrammarDef

end Palette
