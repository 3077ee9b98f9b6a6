import Palette.Proofs.Grammar.Highlighting
import Palette.Proofs.Grammar.Simulation
import Palette.Proofs.Grammar.Soundness
import Palette.Proofs.Lexer.Kinds

/-!
# Where errors point

An error is shown by a range of the text, and capturing a range clamps a span that does not fit. A
span that can be cut out of its text is captured as it is. So it remains to see that every error is
about such a span: a lexical error about the run that no type matches, and an error of the grammar
about a token of the text, or about the end of the input, since a recognizer sees nothing else and
reports every error at a token it sees.

Main statement: `Parser.range_toHighlightError`.
-/

namespace Palette

open Text

/-! ## Spans that can be cut out -/

namespace Text

theorem byteLength_of_dropBytes {n : Nat} {text rest : List Char}
    (h : dropBytes n text = some rest) : n + byteLength rest = byteLength text := by
  fun_induction dropBytes n text with
  | case1 text =>
    cases h
    exact Nat.zero_add _
  | case2 => cases h
  | case3 n c text hc ih =>
    have := ih h
    rw [byteLength_cons]
    omega
  | case4 => cases h

theorem le_byteLength_of_takeBytes {n : Nat} {text piece : List Char}
    (h : takeBytes n text = some piece) : n ≤ byteLength text := by
  fun_induction takeBytes n text generalizing piece with
  | case1 => exact Nat.zero_le _
  | case2 => cases h
  | case3 n c text hc ih =>
    obtain ⟨rest, hrest, -⟩ := Option.map_eq_some_iff.mp h
    have := ih hrest
    rw [byteLength_cons]
    omega
  | case4 => cases h

/-- What can be cut out lies within the text. -/
theorem bounds_of_slice {text piece : List Char} {start stop : Nat}
    (h : slice text start stop = some piece) : start ≤ stop ∧ stop ≤ byteLength text := by
  unfold slice at h
  split at h
  · next hle =>
    obtain ⟨rest, hrest, hpiece⟩ := Option.bind_eq_some_iff.mp h
    have := byteLength_of_dropBytes hrest
    have := le_byteLength_of_takeBytes hpiece
    exact ⟨hle, by omega⟩
  · cases h

end Text

theorem Span.bounds_of_slice? {s : Span} {source text : String} (h : s.slice? source = some text) :
    s.start ≤ s.stop ∧ s.stop ≤ byteLength source.toList := by
  obtain ⟨piece, hpiece, -⟩ := Option.map_eq_some_iff.mp h
  exact bounds_of_slice hpiece

/-- The end of a text can be cut out of it. -/
theorem Span.slice?_emptyAt (source : String) :
    (Span.emptyAt (byteLength source.toList)).slice? source = some "" := by
  have h : source.toList = source.toList ++ ([] ++ []) := by simp
  exact slice?_piece h

/-- A span that can be cut out is captured as it is. -/
theorem SyntaxRange.capture_of_slice? {s : Span} {source text : String}
    (h : s.slice? source = some text) : capture source s = ⟨s.start, s.stop, text⟩ := by
  obtain ⟨hle, hstop⟩ := Span.bounds_of_slice? h
  simp only [capture, Nat.min_eq_left hstop, Nat.min_eq_left hle]
  rw [h]
  rfl

/-! ## What the lexer finds -/

namespace Vocabulary

variable (v : Vocabulary) (text : String)

theorem exists_slice?_of_mem_errors {e : LexError} (h : e ∈ (v.highlightData text).errors) :
    ∃ piece, e.span.slice? text = some piece := by
  have hlaid := v.laid_scan text.toList
  obtain ⟨p, hp, herror⟩ := List.mem_filterMap.mp h
  rw [Piece.span_of_error? herror (hlaid.start_lt_stop p hp)]
  exact Option.isSome_iff_exists.mp (hlaid.isSome_slice?_span hp)

/-- Every token that the parser sees has the text of its span. -/
theorem slice?_of_mem_tokenize {t : Token} (h : t ∈ (v.tokenize text).tokens) :
    t.span.slice? text = some t.image := by
  rw [v.tokens_tokenize text] at h
  obtain ⟨tagged, htagged, rfl⟩ := List.mem_map.mp h
  exact (v.laid_scan text.toList).slice?_tagged tagged (List.mem_filter.mp htagged).1

end Vocabulary

/-- No token of a text stands for the end of the input. -/
theorem Vocabulary.Consistent.isEndOfInput_eq_false {v : Vocabulary} (hv : v.Consistent)
    {text : String} {t : Token} (h : t ∈ (v.tokenize text).tokens) :
    t.kind.isEndOfInput = false := by
  obtain ⟨kind, -, type, htype, -, ht⟩ := exists_concrete_of_mem_tokenize h
  rw [ht, hv.kind_of_type? htype]
  refine beq_false_of_ne fun hend => ?_
  rw [hend, hv.type?_endOfInput] at htype
  cases htype

/-! ## What the recognizer reports -/

/-- The tokens that a recognizer sees are those of the text, and behind them the end of the
input. -/
def RecognizerInput.Sees (input : RecognizerInput) (t : Token) : Prop :=
  t ∈ input.tokens.toList ∨ t = .endOfInput input.length

/-- Whether every error is at a token that the recognizer sees. -/
def Recognition.BlamesSeen (input : RecognizerInput) (s : Recognition) : Prop :=
  ∀ e ∈ s.errors, input.Sees e.token

section

variable {input : RecognizerInput} {s : Recognition}

theorem RecognizerInput.sees_ahead (s : Recognition) (number : Nat) :
    input.Sees (input.ahead s number) := by
  unfold ahead
  cases h : input.tokens[s.position + (number - 1)]? with
  | none => exact .inr rfl
  | some t => exact .inl (Array.mem_toList_iff.mpr (Array.mem_of_getElem? h))

theorem Recognition.BlamesSeen.report (h : s.BlamesSeen input) (kind : RecognitionErrorKind)
    (message : String) : (input.report s kind message).BlamesSeen input := by
  intro e he
  rcases List.mem_append.mp he with he | he
  · exact h e he
  · rw [List.mem_singleton.mp he]
    exact RecognizerInput.sees_ahead s 1

theorem Recognition.BlamesSeen.consume (h : s.BlamesSeen input) (kind : TokenKind) :
    (input.consume s kind).2.BlamesSeen input := by
  unfold RecognizerInput.consume
  split
  · exact h
  · split
    · exact h.report .mismatchedToken _
    · exact h.report .mismatchedToken _

/-- An error at a token of the text is about the span of that token. -/
theorem RecognitionError.span_of_real {e : RecognitionError}
    (h : e.token.kind.isEndOfInput = false) (length : Nat) : e.span length = e.token.span := by
  rw [span, h]
  rfl

theorem RecognitionError.span_of_endOfInput {e : RecognitionError} {n : Nat}
    (h : e.token = .endOfInput n) (length : Nat) : e.span length = .emptyAt length := by
  rw [span, h]
  rfl

/-- **A run reports errors at tokens that it sees.** -/
theorem blamesSeen (input : RecognizerInput) : Simulation input input fun _ s o _ =>
    s.BlamesSeen input → ∀ v t, o = .finished v t → t.BlamesSeen input where
  cutOff _ _ := nofun
  stay v s h := by
    rintro _ _ ⟨⟩
    exact h
  note v s event h := by
    rintro _ _ ⟨⟩
    exact h
  report v s kind message h := by
    rintro _ _ ⟨⟩
    exact h.report kind message
  consume s kind h := by
    rintro _ _ ⟨⟩
    exact h.consume kind
  andThen first rest h v u hu := by
    obtain ⟨w, t, ho, hu⟩ := Outcome.andThen_eq_finished hu
    exact rest w t (first h w t ho) v u hu
  speculate tried h v u hu := by
    obtain ⟨w, t, ht, hu⟩ := Outcome.andThen_eq_finished hu
    have hseen := tried h w t ht
    cases w with
    | some a =>
      cases hu
      exact hseen
    | none =>
      -- what is taken back leaves a part of the errors
      cases hu
      exact fun e he => hseen e (List.mem_of_mem_take he)
  enter inside h v u hu := by
    obtain ⟨w, t, ht, hu⟩ := Outcome.andThen_eq_finished hu
    cases hu
    exact inside h v t ht

end

/-! ## Whole texts -/

/-- The part of a text of `length` bytes that the error is about. -/
def ExecutionError.span (length : Nat) : ExecutionError → Span
  | .lexical e => e.span
  | .recognition e => e.span length

/-- An error about a span that can be cut out points at that span. -/
theorem ExecutionError.range_of_slice? {e : ExecutionError} {source text : String}
    (h : (e.span (byteLength source.toList)).slice? source = some text) :
    (e.toHighlightError source).range
      = ⟨(e.span (byteLength source.toList)).start, (e.span (byteLength source.toList)).stop,
          text⟩ := by
  cases e with
  | lexical e => exact SyntaxRange.capture_of_slice? h
  | recognition e => exact SyntaxRange.capture_of_slice? h

namespace Parser

variable {τ : Type} {p : Parser τ} {steps : Nat} {text : String}

/-- An error of the grammar is about a token of the text, or about the end of the input. -/
theorem token_of_recognizeWithin {result : Option τ} {s : Recognition}
    (h : p.recognizeWithin steps text (p.vocabulary.tokenize text).tokens = .finished result s)
    {r : RecognitionError} (hr : r ∈ s.errors) :
    r.token ∈ (p.vocabulary.tokenize text).tokens ∨
      r.token = .endOfInput (byteLength text.toList) := by
  have hseen : s.BlamesSeen (p.input text (p.vocabulary.tokenize text).tokens) :=
    (blamesSeen _).recognizeWith (.refl _) p.rules steps p.start nofun result s h
  exact hseen r hr

/--
**Every error points at a real part of the text.**

The range of an error lies within the text, cuts through no character, and is the span that the
error is about, unclamped: the run of unmatched characters for a lexical error; for an error of the
grammar the span of a token of the text, whose image it covers, or the end of the text where the
input ran out.
-/
theorem range_toHighlightError (hvoc : p.vocabulary.Consistent) {e : Execution τ}
    {log : List String} (h : p.executeWithin steps text = some (e, log)) :
    ∀ error ∈ e.errors,
      let range := (error.toHighlightError text).range
      range.start ≤ range.stop ∧ range.stop ≤ byteLength text.toList ∧
        range.span.slice? text = some range.text ∧
        match error with
        | .lexical l => range.span = ⟨l.offset, l.offset + l.length⟩
        | .recognition r =>
          r.token ∈ (p.vocabulary.tokenize text).tokens ∧ r.token.kind.isEndOfInput = false ∧
              range.span = r.token.span ∧ range.text = r.token.image ∨
            r.token = .endOfInput (byteLength text.toList) ∧
              range.span = .emptyAt (byteLength text.toList) ∧ range.text = "" := by
  obtain ⟨result, s, hrun, rfl, -⟩ := executeWithin_eq_some_iff.mp h
  intro error herror range
  -- Whatever can be cut out at the span of the error is what the range shows.
  have hshown : ∀ span piece, error.span (byteLength text.toList) = span →
      span.slice? text = some piece → range.span = span ∧ range.text = piece ∧
        range.start ≤ range.stop ∧ range.stop ≤ byteLength text.toList ∧
        range.span.slice? text = some range.text := by
    rintro _ piece rfl hpiece
    have hrange : range = _ := ExecutionError.range_of_slice? hpiece
    obtain ⟨hle, hstop⟩ := Span.bounds_of_slice? hpiece
    rw [hrange]
    exact ⟨rfl, rfl, hle, hstop, hpiece⟩
  rcases List.mem_append.mp herror with hmem | hmem
  · obtain ⟨l, hl, rfl⟩ := List.mem_map.mp hmem
    rw [p.vocabulary.errors_tokenize text] at hl
    obtain ⟨piece, hpiece⟩ := p.vocabulary.exists_slice?_of_mem_errors text hl
    obtain ⟨hspan, -, hle, hstop, hslice⟩ := hshown l.span piece rfl hpiece
    exact ⟨hle, hstop, hslice, hspan⟩
  · obtain ⟨r, hr, rfl⟩ := List.mem_map.mp hmem
    rcases token_of_recognizeWithin hrun hr with htoken | htoken
    · have hreal := hvoc.isEndOfInput_eq_false htoken
      obtain ⟨hspan, htext, hle, hstop, hslice⟩ := hshown r.token.span r.token.image
        (RecognitionError.span_of_real hreal _) (p.vocabulary.slice?_of_mem_tokenize text htoken)
      exact ⟨hle, hstop, hslice, .inl ⟨htoken, hreal, hspan, htext⟩⟩
    · obtain ⟨hspan, htext, hle, hstop, hslice⟩ := hshown (.emptyAt (byteLength text.toList)) ""
        (RecognitionError.span_of_endOfInput htoken _) (Span.slice?_emptyAt text)
      exact ⟨hle, hstop, hslice, .inr ⟨htoken, hspan, htext⟩⟩

set_option maxRecDepth 4000 in
/-- A letter that nothing matches, one that is passed over, and a pair that the text leaves open. -/
theorem range_toHighlightError_pairs :
    Vocabulary.letters.Consistent ∧
      ∃ e log, GrammarDef.pairsParser.executeWithin 20 "aéaba" = some (e, log) ∧
        e.errors.map (fun error => (error.toHighlightError "aéaba").range)
          = [⟨1, 3, "é"⟩, ⟨3, 4, "a"⟩, ⟨6, 6, ""⟩] ∧
        ∀ error ∈ e.errors,
          let range := (error.toHighlightError "aéaba").range
          range.start ≤ range.stop ∧ range.stop ≤ byteLength "aéaba".toList ∧
            range.span.slice? "aéaba" = some range.text := by
  have hrun : (GrammarDef.pairsParser.executeWithin 20 "aéaba").map (fun r =>
      r.1.errors.map fun error => (error.toHighlightError "aéaba").range)
      = some [⟨1, 3, "é"⟩, ⟨3, 4, "a"⟩, ⟨6, 6, ""⟩] := by cbv
  obtain ⟨⟨e, log⟩, h, hranges⟩ := Option.map_eq_some_iff.mp hrun
  refine ⟨Vocabulary.consistent_letters, e, log, h, hranges, fun error herror => ?_⟩
  obtain ⟨hle, hstop, hslice, -⟩ :=
    range_toHighlightError (p := GrammarDef.pairsParser) Vocabulary.consistent_letters h error herror
  exact ⟨hle, hstop, hslice⟩

end Parser

end Palette
