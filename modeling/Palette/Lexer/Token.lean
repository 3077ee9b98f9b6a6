import Palette.Highlight
import Palette.Text.Record
import Palette.Vocabulary

/-!
# Tokens

A token is a classified piece of the text. Its offsets are those of its first and of its last
byte; the token that stands for the end of the input has no bytes and carries the length of the
text twice.
-/

namespace Palette

/-- A classified, positioned piece of text. -/
structure Token where
  kind : TokenKind
  /-- The text of the piece. -/
  image : String
  /-- Offset of the first byte. -/
  start : Nat
  /-- Offset of the last byte. -/
  last : Nat
  deriving DecidableEq, Repr

namespace Token

/-- The token that stands for the end of a text of `length` bytes. -/
def endOfInput (length : Nat) : Token :=
  { kind := .endOfInput, image := "", start := length, last := length }

/-- What a token is before anything is read. -/
instance : Inhabited Token := ⟨endOfInput 0⟩

/-- The half-open span of the token. -/
def span (t : Token) : Span := Span.ofInclusive t.start t.last

/-- The token as a message names it. -/
def describe (t : Token) : String :=
  if t.kind.isEndOfInput then "end of input" else "`" ++ t.image ++ "`"

end Token

/-- A token with what highlighting needs to know of its type. -/
structure TaggedToken where
  token : Token
  tags : List String
  /-- Whether the parser does not get to see the token. -/
  skipped : Bool
  deriving DecidableEq, Repr

/-- The token as a node of a highlight. -/
def TaggedToken.node (t : TaggedToken) : HighlightNode :=
  { text := t.token.image, start := t.token.span.start, stop := t.token.span.stop, tags := t.tags }

end Palette
