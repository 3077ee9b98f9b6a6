import Palette.Grammar.Parser

/-!
# Highlighting and executing agree

Executing reads the tokens that tokenizing leaves, highlighting those of the highlight data that
are not skipped. Both take the same pieces of a scan for tokens, so every token has the same
offsets, and the errors of the lexer are the same ones in the same order. What the recognizer makes
of the tokens is then the same as well.

Main statement: `Parser.highlightWithin_eq`.
-/

namespace Palette

/-! ## Two views of the same pieces -/

/-- The tokens that are not skipped, without their tags. -/
def HighlightData.parsed (data : HighlightData) : List Token :=
  (data.tokens.filter (!·.skipped)).map (·.token)

theorem Piece.parsed?_eq (v : Vocabulary) (p : Piece) :
    p.parsed? = ((p.tagged? v).filter (!·.skipped)).map (·.token) := by
  cases p with
  | token type start image =>
    rw [parsed?, tagged?]
    cases type.skipped <;> simp [Option.filter]
  | unmatched start stop => rfl

namespace Vocabulary

variable (v : Vocabulary) (text : String)

/-- Tokenizing for parsing leaves the tokens that are not skipped. -/
theorem tokens_tokenize : (v.tokenize text).tokens = (v.highlightData text).parsed := by
  simp only [tokenize, HighlightData.parsed, highlightData, List.filter_filterMap,
    List.map_filterMap, Piece.parsed?_eq v]

/-- Tokenizing for parsing leaves every error. -/
theorem errors_tokenize : (v.tokenize text).errors = (v.highlightData text).errors := rfl

end Vocabulary

/-! ## Two readings of the same tokens -/

/-- The errors of both stages are converted one by one, in their order. -/
theorem Parser.map_toHighlightError_allErrors (lexical : List LexError)
    (recognition : List RecognitionError) (source : String) :
    (allErrors lexical recognition).map (·.toHighlightError source)
      = lexical.map (·.toHighlightError source) ++ recognition.map (·.toHighlightError source) := by
  rw [allErrors, List.map_append, List.map_map, List.map_map]
  rfl

/--
**Highlighting shows what executing finds.**

Within every number of steps, a text is highlighted exactly when it is executed to an end. The
errors of the highlight are then those of the execution, each as part of a highlight and in the
same order, and its nodes are those of the lexer alone, whatever the errors are.
-/
theorem Parser.highlightWithin_eq {τ : Type} (p : Parser τ) (text : String) :
    (∀ steps, p.highlightWithin steps text
      = (p.executeWithin steps text).map fun (e, _) =>
          { nodes := (p.vocabulary.highlight text).nodes,
            errors := e.errors.map (·.toHighlightError text) }) ∧
      p.highlight text
        = (p.execute text).map fun (e, _) =>
            { nodes := (p.vocabulary.highlight text).nodes,
              errors := e.errors.map (·.toHighlightError text) } := by
  have hwithin : ∀ steps, p.highlightWithin steps text
      = (p.executeWithin steps text).map fun (e, _) =>
          { nodes := (p.vocabulary.highlight text).nodes,
            errors := e.errors.map (·.toHighlightError text) } := by
    intro steps
    have htokens : ((p.vocabulary.highlightData text).tokens.filter (!·.skipped)).map (·.token)
        = (p.vocabulary.tokenize text).tokens := (p.vocabulary.tokens_tokenize text).symm
    simp only [highlightWithin, executeWithin, htokens]
    cases p.recognizeWithin steps text (p.vocabulary.tokenize text).tokens with
    | unfinished => rfl
    | finished result s =>
      simp only [Option.map_some, map_toHighlightError_allErrors, p.vocabulary.errors_tokenize text]
      rfl
  exact ⟨hwithin, hwithin _⟩

end Palette
