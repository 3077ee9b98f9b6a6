import Palette.Grammar.Recognizer
import Palette.Proofs.Grammar.Derivation

/-!
# The tokens that a run goes past

A run goes past the tokens in order. It takes most of them; one that does not fit is passed over
when the run recovers, and leaves an error behind. `Reads` says which tokens lie between two
states of a run and what became of each, and `Follows` adds that those taken are a word of the
productions that the run went along.

Main statement: `follows_consume`, for the primitive that moves a run on.
-/

namespace Palette

/-- A token that a run went past. -/
structure Passage where
  token : Token
  /-- Whether the token was taken; otherwise it was passed over. -/
  taken : Bool

namespace Passage

/-- The tokens that were taken. -/
def takenOf (l : List Passage) : List Token := (l.filter (·.taken)).map (·.token)

/-- The tokens that were passed over. -/
def passedOf (l : List Passage) : List Token := (l.filter (!·.taken)).map (·.token)

/-- The kinds of the tokens that were taken. -/
def word (l : List Passage) : List TokenKind := (takenOf l).map (·.kind)

@[simp] theorem word_append (l m : List Passage) : word (l ++ m) = word l ++ word m := by
  simp [word, takenOf]

@[simp] theorem passedOf_append (l m : List Passage) :
    passedOf (l ++ m) = passedOf l ++ passedOf m := by
  simp [passedOf]

end Passage

namespace RecognizerInput

variable {input : RecognizerInput} {g : Grammar} {s t u : Recognition}

/-- From one state to the other, the run went past these tokens. -/
structure Reads (input : RecognizerInput) (s : Recognition) (l : List Passage) (t : Recognition) :
    Prop where
  tokens : input.tokens.toList.drop s.position
    = l.map (·.token) ++ input.tokens.toList.drop t.position
  position : t.position = s.position + l.length
  /-- There is an error for each token that was passed over, and no other. -/
  errors : ∃ es : List RecognitionError, t.errors = s.errors ++ es ∧
    es.map (·.token) = Passage.passedOf l ∧ ∀ e ∈ es, e.kind = .mismatchedToken
  stack : t.stack = s.stack

namespace Reads

theorem refl (s : Recognition) : input.Reads s [] s :=
  ⟨rfl, rfl, ⟨[], by simp, rfl, by simp⟩, rfl⟩

theorem trans {l m : List Passage} (h : input.Reads s l t) (h' : input.Reads t m u) :
    input.Reads s (l ++ m) u := by
  obtain ⟨es, hes, htok, hkind⟩ := h.errors
  obtain ⟨es', hes', htok', hkind'⟩ := h'.errors
  refine ⟨?_, ?_, ⟨es ++ es', ?_, ?_, ?_⟩, h'.stack.trans h.stack⟩
  · rw [h.tokens, h'.tokens, List.map_append, List.append_assoc]
  · rw [h'.position, h.position, List.length_append, Nat.add_assoc]
  · rw [hes', hes, List.append_assoc]
  · rw [List.map_append, htok, htok', Passage.passedOf_append]
  · intro e he
    rcases List.mem_append.mp he with he | he
    · exact hkind e he
    · exact hkind' e he

theorem take {token : Token} (h : input.tokens.toList[s.position]? = some token) :
    input.Reads s [⟨token, true⟩] { s with position := s.position + 1 } := by
  obtain ⟨hlt, rfl⟩ := List.getElem?_eq_some_iff.mp h
  exact ⟨List.drop_eq_getElem_cons hlt, rfl, ⟨[], by simp, rfl, by simp⟩, rfl⟩

theorem passOver {token : Token} (h : input.tokens.toList[s.position]? = some token)
    {e : RecognitionError} (hkind : e.kind = .mismatchedToken) (htoken : e.token = token) :
    input.Reads s [⟨token, false⟩]
      { s with position := s.position + 1, errors := s.errors ++ [e] } := by
  obtain ⟨hlt, rfl⟩ := List.getElem?_eq_some_iff.mp h
  exact ⟨List.drop_eq_getElem_cons hlt, rfl, ⟨[e], rfl, by simp [htoken, Passage.passedOf],
    by simp [hkind]⟩, rfl⟩

/-- A run that is within the tokens stays there. -/
theorem position_le {l : List Passage} (h : input.Reads s l t)
    (hs : s.position ≤ input.tokens.size) : t.position ≤ input.tokens.size := by
  have hlen := congrArg List.length h.tokens
  have hpos := h.position
  simp only [List.length_drop, List.length_append, List.length_map, Array.length_toList] at hlen
  omega

end Reads

/-- The run went from one state to the other along the productions. -/
def Follows (input : RecognizerInput) (g : Grammar) (s : Recognition) (ps : List Production)
    (t : Recognition) : Prop :=
  ∃ l, input.Reads s l t ∧ g.Derives input.vocabulary.fits ps (Passage.word l)

namespace Follows

variable {ps qs : List Production} {bodies : List (List Production)} {number : Nat}
  {key : DecisionKey}

theorem refl (s : Recognition) : input.Follows g s [] s := ⟨[], .refl s, .nil⟩

theorem append (h : input.Follows g s ps t) (h' : input.Follows g t qs u) :
    input.Follows g s (ps ++ qs) u := by
  obtain ⟨l, hl, hd⟩ := h
  obtain ⟨m, hm, hd'⟩ := h'
  exact ⟨l ++ m, hl.trans hm, Passage.word_append l m ▸ hd.append hd'⟩

/-- Another sequence that derives the same words can be gone along in the same way. -/
theorem imp (h : input.Follows g s ps t)
    (hd : ∀ w, g.Derives input.vocabulary.fits ps w → g.Derives input.vocabulary.fits qs w) :
    input.Follows g s qs t := by
  obtain ⟨l, hl, hw⟩ := h
  exact ⟨l, hl, hd _ hw⟩

theorem stack_eq (h : input.Follows g s ps t) : t.stack = s.stack := by
  obtain ⟨l, hl, -⟩ := h
  exact hl.stack

theorem position_ge (h : input.Follows g s ps t) : s.position ≤ t.position := by
  obtain ⟨l, hl, -⟩ := h
  rw [hl.position]
  exact Nat.le_add_right _ _

theorem position_le (h : input.Follows g s ps t) (hs : s.position ≤ input.tokens.size) :
    t.position ≤ input.tokens.size := by
  obtain ⟨l, hl, -⟩ := h
  exact hl.position_le hs

/-- What can be gone along without moving on derives the empty word. -/
theorem derives_nil (h : input.Follows g s ps t) (hpos : t.position = s.position) :
    g.Derives input.vocabulary.fits ps [] := by
  obtain ⟨l, hl, hd⟩ := h
  have hnil : l = [] := List.length_eq_zero_iff.mp (by have := hl.position; omega)
  subst hnil
  exact hd

/-! ### Along single productions -/

theorem nonterminal {r : RuleId} (hr : r < g.size) (h : input.Follows g s (g.rule r) t) :
    input.Follows g s [.nonterminal r] t :=
  h.imp fun _ hw => hw.of_rule hr

theorem optionNone (s : Recognition) :
    input.Follows g s [.decision number key .option bodies] s :=
  (refl s).imp fun _ hw => .optionNone hw

theorem optionSome (h : input.Follows g s (bodyOf bodies) t) :
    input.Follows g s [.decision number key .option bodies] t :=
  h.imp fun w hw => List.append_nil w ▸ .optionSome hw .nil

theorem manyDone (s : Recognition) : input.Follows g s [.decision number key .many bodies] s :=
  (refl s).imp fun _ hw => .manyDone hw

theorem manyMore (h : input.Follows g s (bodyOf bodies) t)
    (h' : input.Follows g t [.decision number key .many bodies] u) :
    input.Follows g s [.decision number key .many bodies] u := by
  obtain ⟨l, hl, hd⟩ := h
  obtain ⟨m, hm, hd'⟩ := h'
  exact ⟨l ++ m, hl.trans hm, Passage.word_append l m ▸ .manyMore hd hd'⟩

theorem atLeastOne (h : input.Follows g s (bodyOf bodies) t)
    (h' : input.Follows g t [.decision number key .many bodies] u) :
    input.Follows g s [.decision number key .atLeastOne bodies] u := by
  obtain ⟨l, hl, hd⟩ := h
  obtain ⟨m, hm, hd'⟩ := h'
  exact ⟨l ++ m, hl.trans hm, Passage.word_append l m ▸ .atLeastOne hd hd'⟩

theorem alternation {sequence : List Production} (hmem : sequence ∈ bodies)
    (h : input.Follows g s sequence t) :
    input.Follows g s [.decision number key .alternation bodies] t :=
  h.imp fun w hw => List.append_nil w ▸ .alternation hmem hw .nil

end Follows

/-! ### The primitive that moves on -/

/-- A token that fits a kind other than the end of the input is one of the tokens. -/
theorem getElem?_of_fitsAhead {number : Nat} {kind : TokenKind} (hkind : kind ≠ .endOfInput)
    (hend : ∀ k, input.vocabulary.fits .endOfInput k = true → k = .endOfInput)
    (h : input.fitsAhead s number kind = true) :
    input.tokens.toList[s.position + (number - 1)]? = some (input.ahead s number) := by
  unfold fitsAhead ahead at h
  unfold ahead
  rw [Array.getElem?_toList]
  cases hget : input.tokens[s.position + (number - 1)]? with
  | some t => rfl
  | none =>
    rw [hget] at h
    exact absurd (hend kind h) hkind

/-- **Consuming goes along a terminal.** -/
theorem follows_consume {kind : TokenKind} (hkind : kind ≠ .endOfInput)
    (hend : ∀ k, input.vocabulary.fits .endOfInput k = true → k = .endOfInput) {token : Token}
    (h : input.consume s kind = (some token, t)) : input.Follows g s [.terminal kind] t := by
  unfold consume at h
  split at h
  · next hfits =>
    obtain ⟨-, rfl⟩ := Prod.mk.inj h
    have hget := getElem?_of_fitsAhead hkind hend hfits
    exact ⟨_, .take hget, .terminal hfits .nil⟩
  · split at h
    · next hfits =>
      obtain ⟨-, rfl⟩ := Prod.mk.inj h
      simp only [Bool.and_eq_true] at hfits
      have hget := getElem?_of_fitsAhead hkind hend hfits.2
      -- The token that does not fit is there too, since it stands in front of the one that does.
      have hlt : s.position < input.tokens.toList.length :=
        Nat.lt_of_succ_lt (List.getElem?_eq_some_iff.mp hget).1
      have hnext : input.tokens.toList[s.position]? = some (input.ahead s 1) := by
        rw [ahead, Nat.sub_self, Nat.add_zero, ← Array.getElem?_toList,
          List.getElem?_eq_getElem hlt, Option.getD_some]
      exact ⟨_, (Reads.passOver hnext rfl rfl).trans (.take hget), .terminal hfits.2 .nil⟩
    · cases h

end RecognizerInput

end Palette
