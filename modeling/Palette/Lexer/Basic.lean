import Palette.Lexer.LexError
import Palette.Lexer.Token

/-!
# The lexer

At every offset the first type, in order of definition, whose pattern matches a non-empty piece
there takes that piece. A character where no type matches is passed over; the characters passed
over between two tokens make one error. So the pieces of a scan, tokens and unmatched runs, are
exactly the text cut into parts, each with the offset that the scan has come to.

Searching for a match is done ahead: when a type is looked for and its next match lies further
on, that place is remembered as its horizon, and the type is not looked for again before it.

## Termination

`scan` reads at least one character per step.
-/

namespace Palette

open Text

/-- What is known about where a type can match next. -/
inductive Horizon where
  /-- Nowhere before this offset. -/
  | from (offset : Nat)
  /-- Nowhere in the rest of the text. -/
  | never
  deriving DecidableEq, Repr

namespace Horizon

/-- Whether a match at `offset` is ruled out. -/
def rulesOut : Horizon → Nat → Bool
  | .from h, offset => offset < h
  | never, _ => true

end Horizon

/-- A part of a scanned text, by its byte offsets. -/
inductive Piece where
  /-- Characters that a type matches, from an offset on. -/
  | token (type : TokenType) (start : Nat) (image : List Char)
  /-- The characters between two offsets, which no type matches. -/
  | unmatched (start stop : Nat)

namespace Lexer

/--
The first type that matches a non-empty piece at `offset`, with the length of the piece in
characters, and what the searches showed about later offsets.
-/
def matchAt (before text : List Char) (offset : Nat) :
    List (TokenType × Search) → List Horizon → Option (TokenType × Nat) × List Horizon
  | (type, find) :: types, h :: horizons =>
    let others (h : Horizon) : Option (TokenType × Nat) × List Horizon :=
      let r := matchAt before text offset types horizons
      (r.1, h :: r.2)
    if h.rulesOut offset then others h
    else
      match find before text with
      | some (0, length) => if 0 < length then (some (type, length), h :: horizons) else others h
      | some (skip, _) => others (.from (offset + byteLength (text.take skip)))
      | none => others .never
  | _, horizons => (none, horizons)

/-- The characters passed over from `start?` up to `offset`, if any, as a piece. -/
def flush (start? : Option Nat) (offset : Nat) : List Piece :=
  match start? with
  | some start => [.unmatched start offset]
  | none => []

/--
Scans `text`, which starts at `offset` behind the characters of `before`, given latest first.
`start?` is where the characters begin that were passed over since the last token.
-/
def scanFrom (types : List (TokenType × Search)) (horizons : List Horizon) (before : List Char)
    (offset : Nat) (start? : Option Nat) (text : List Char) : List Piece :=
  match text with
  | [] => flush start? offset
  | c :: rest =>
    match matchAt before (c :: rest) offset types horizons with
    | (some (type, length), horizons) =>
      let image := c :: rest.take (length - 1)
      flush start? offset ++ .token type offset image ::
        scanFrom types horizons (image.reverse ++ before) (offset + byteLength image) none
          (rest.drop (length - 1))
    | (none, horizons) =>
      scanFrom types horizons (c :: before) (offset + c.utf8Size) (some (start?.getD offset)) rest
termination_by text.length
decreasing_by
  · simp only [List.length_drop, List.length_cons]; omega
  · simp

end Lexer

/-- The text cut into tokens and unmatched runs. -/
def Vocabulary.scan (v : Vocabulary) (text : List Char) : List Piece :=
  Lexer.scanFrom v.concrete (v.concrete.map fun _ => .from 0) [] 0 none text

/-- A token of the given type and text that starts at `offset`. -/
def Token.of (type : TokenType) (offset : Nat) (text : List Char) : Token :=
  { kind := type.kind, image := String.ofList text, start := offset,
    last := offset + byteLength text - 1 }

namespace Piece

/-- The token of a piece, with the tags of its kind. -/
def tagged? (v : Vocabulary) : Piece → Option TaggedToken
  | token type start image =>
    some { token := .of type start image, skipped := type.skipped,
           tags := ((v.type? type.kind).map (·.tags)).getD [] }
  | unmatched _ _ => none

/-- The token of a piece, if the parser gets to see it. -/
def parsed? : Piece → Option Token
  | token type start image => if type.skipped then none else some (.of type start image)
  | unmatched _ _ => none

/-- The error of a piece of the given text. -/
def error? (text : List Char) : Piece → Option LexError
  | token _ _ _ => none
  | unmatched start stop => some (.unmatched text start stop)

end Piece

/-- Every token of a text and every error, for highlighting. -/
structure HighlightData where
  tokens : List TaggedToken
  errors : List LexError
  deriving DecidableEq, Repr

/-- The tokens that the parser sees, and every error. -/
structure Tokenized where
  tokens : List Token
  errors : List LexError
  deriving DecidableEq, Repr

namespace Vocabulary

/-- Tokenizes a text for highlighting. -/
def highlightData (v : Vocabulary) (text : String) : HighlightData :=
  let pieces := v.scan text.toList
  { tokens := pieces.filterMap (·.tagged? v), errors := pieces.filterMap (·.error? text.toList) }

/-- Tokenizes a text for parsing. -/
def tokenize (v : Vocabulary) (text : String) : Tokenized :=
  let pieces := v.scan text.toList
  { tokens := pieces.filterMap (·.parsed?), errors := pieces.filterMap (·.error? text.toList) }

/-- Highlights by the lexer alone: a node per token and an error per unmatched run. -/
def highlight (v : Vocabulary) (text : String) : Highlight :=
  let data := v.highlightData text
  { nodes := data.tokens.map (·.node), errors := data.errors.map (·.toHighlightError text) }

end Vocabulary

end Palette
