import Palette.Collections.Halving
import Palette.Span

/-!
# Highlights

A highlight pairs the tagged nodes of a text with every error found in it. Nodes cover what can
be matched even when the text fails to lex or parse, so a text field can style what it has and
decorate the rest.

Nodes come in order and do not overlap; `nodeAt` relies on that and searches by halving.
-/

namespace Palette

/-- A piece of text with the tags of its token type. -/
structure HighlightNode where
  text : String
  start : Nat
  stop : Nat
  tags : List String
  deriving DecidableEq, Repr, Inhabited

/-- The span of the node. -/
def HighlightNode.span (n : HighlightNode) : Span := ⟨n.start, n.stop⟩

/-- What an error objects to. -/
inductive HighlightErrorKind where
  /-- A run of characters that no pattern matches. -/
  | lexical
  /-- The grammar expected another token here. -/
  | mismatchedToken
  /-- None of the alternatives of a choice can start here. -/
  | noViableAlternative
  /-- A repetition that runs at least once could not run even once. -/
  | earlyExit
  /-- The start rule finished before the text did. -/
  | notAllInputParsed
  deriving DecidableEq, Repr, Inhabited

namespace HighlightErrorKind

/-- Stable machine-readable name, by which a renderer picks a decoration. -/
def name : HighlightErrorKind → String
  | lexical => "lexical"
  | mismatchedToken => "mismatched-token"
  | noViableAlternative => "no-viable-alternative"
  | earlyExit => "early-exit"
  | notAllInputParsed => "not-all-input-parsed"

/-- Whether the error comes from the lexer rather than from the grammar. -/
def isLexical (k : HighlightErrorKind) : Bool := k == lexical

end HighlightErrorKind

/-- An error with the part of the text it is about. -/
structure HighlightError where
  kind : HighlightErrorKind
  message : String
  range : SyntaxRange
  deriving DecidableEq, Repr, Inhabited

namespace HighlightError

/-- An error whose range is `span` of `source`. -/
def about (kind : HighlightErrorKind) (message : String) (source : String) (span : Span) :
    HighlightError :=
  { kind, message, range := SyntaxRange.capture source span }

/-- The span of the error. -/
def span (e : HighlightError) : Span := e.range.span

/-- The line by which the error is reported. -/
def render (e : HighlightError) : String :=
  e.kind.name ++ " error at " ++ e.span.render ++ ": " ++ e.message

end HighlightError

/-- The nodes and errors of one text. -/
structure Highlight where
  nodes : List HighlightNode
  errors : List HighlightError
  deriving DecidableEq, Repr, Inhabited

namespace Highlight

/-- Whether anything was found to object to. -/
def hasErrors (h : Highlight) : Bool := !h.errors.isEmpty

/-- The node that covers `offset`. -/
def nodeAt (h : Highlight) (offset : Nat) : Option HighlightNode :=
  h.nodes[partitionPoint (fun n => n.stop ≤ offset) h.nodes]?.filter (·.span.contains offset)

/-- The errors whose range contains `offset`, and those without text that sit exactly there. -/
def errorsAt (h : Highlight) (offset : Nat) : List HighlightError :=
  h.errors.filter fun e => e.span.contains offset || (e.span.isEmpty && e.span.start == offset)

/-- A node that is found covers the offset. -/
theorem contains_of_nodeAt {h : Highlight} {offset : Nat} {n : HighlightNode}
    (hn : h.nodeAt offset = some n) : n.span.contains offset = true :=
  (Option.filter_eq_some_iff.mp hn).2

end Highlight

end Palette
