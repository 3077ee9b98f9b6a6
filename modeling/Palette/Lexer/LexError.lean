import Palette.Highlight
import Palette.Text.Quoted

/-!
# Lexical errors

A lexical error is a run of characters that no pattern matches. It is placed by byte offset and
also by line and column: the lines that end in front of it are counted, and the characters of its
own line in front of it.
-/

namespace Palette

open Text

/-- A run of unmatched characters. -/
structure LexError where
  /-- Offset of the first byte of the run. -/
  offset : Nat
  /-- Length of the run in bytes. -/
  length : Nat
  /-- Line of the first character. -/
  line : Nat
  /-- Column of the first character. -/
  column : Nat
  message : String
  deriving DecidableEq, Repr

/-- What follows the last line feed of a text, or the whole text if it has none. -/
def Text.lastLine (text : List Char) : List Char := (text.reverse.takeWhile (· != '\n')).reverse

namespace LexError

/-- The error of the unmatched characters of a text between two of its offsets. -/
def unmatched (text : List Char) (start stop : Nat) : LexError :=
  let before := (takeBytes start text).getD []
  let line := before.count '\n' + 1
  let column := (lastLine before).length + 1
  let skipped := (slice text start stop).getD []
  { offset := start, length := stop - start, line, column,
    message :=
      "unexpected character" ++ (if skipped.length > 1 then "s" else "") ++ " `" ++
        escaped (String.ofList skipped) ++ "` at line " ++ toString line ++ ", column " ++
        toString column }

/-- The span of the run. -/
def span (e : LexError) : Span := ⟨e.offset, e.offset + e.length⟩

/-- The error as part of a highlight. -/
def toHighlightError (e : LexError) (source : String) : HighlightError :=
  .about .lexical e.message source e.span

end LexError

end Palette
