import Palette.Calculator.Rules
import Palette.Decimal.Text

/-!
# Reports

A report is what is printed about a text: its value, its highlight or its tokens, one line each,
and a line for each error.
-/

namespace Palette

/-- Lines about a text. -/
structure Report where
  text : String
  /-- Whether the text was free of errors. -/
  clean : Bool
  deriving DecidableEq, Repr

namespace Report

/-- The lines, each with its end. -/
def lines (lines : List String) : String := String.join (lines.map (· ++ "\n"))

/-- The line about an error. -/
def errorLine (e : HighlightError) : String := "error: " ++ e.render

/-- The value of a text behind its errors. -/
def ofExecution {α : Type} (value : α → String) (source : String) (e : Execution α) : Report :=
  let errors := e.errors.map (·.toHighlightError source)
  let result := e.result.toList.map fun v =>
    if errors.isEmpty then value v else "partial result: " ++ value v
  { text := lines (errors.map errorLine ++ result), clean := errors.isEmpty }

/-- The line about a node: its span, its tags and its text. -/
def nodeLine (n : HighlightNode) : String :=
  Text.padLeft 4 (toString n.start) ++ ".." ++ Text.padRight 4 (toString n.stop) ++ " " ++
    Text.padRight 16 (Text.joined "," n.tags) ++ " " ++ Text.quoted n.text

/-- The nodes of a highlight, then its errors. -/
def ofHighlight (h : Highlight) : Report :=
  { text := lines (h.nodes.map nodeLine ++ h.errors.map errorLine), clean := h.errors.isEmpty }

/-- The line about a token: its type, its span and its text. -/
def tokenLine (v : Vocabulary) (t : TaggedToken) : String :=
  Text.padRight 12 (v.name t.token.kind) ++ " " ++ t.token.span.render ++ " " ++
    Text.quoted t.token.image ++ (if t.skipped then " (skipped)" else "")

/-- All tokens of a text, skipped ones included, then the lexical errors. -/
def ofTokens (v : Vocabulary) (source : String) : Report :=
  let data := v.highlightData source
  let errors := data.errors.map (·.toHighlightError source)
  { text := lines (data.tokens.map (tokenLine v) ++ errors.map errorLine),
    clean := errors.isEmpty }

end Report

/-- The report about the value of a text; a run that would not end gives nothing. -/
def Parser.evaluation? (p : Parser Float) (source : String) : Option Report :=
  (p.execute source).map fun (e, _) => Report.ofExecution Decimal.plain source e

end Palette
