import Palette.Text.Bytes

/-!
# Spans of text

A span is a half-open range of byte offsets. A syntax range is a span together with the text it
covers; it is what an error decoration needs, the part to underline and the snippet to quote.
-/

namespace Palette

open Text

/-- The bytes from `start` up to, but not including, `stop`. -/
structure Span where
  start : Nat
  stop : Nat
  deriving DecidableEq, Repr, Inhabited

namespace Span

/-- The span without text at offset zero. -/
def empty : Span := ⟨0, 0⟩

/-- The span without text at `offset`. -/
def emptyAt (offset : Nat) : Span := ⟨offset, offset⟩

/-- The span of the bytes `start` to `last`, both included. -/
def ofInclusive (start last : Nat) : Span := ⟨start, last + 1⟩

/-- Number of bytes; a span that ends before it starts has none. -/
def length (s : Span) : Nat := s.stop - s.start

/-- Whether the span covers no text. -/
def isEmpty (s : Span) : Bool := s.stop ≤ s.start

/-- Whether `offset` falls within the span. -/
def contains (s : Span) (offset : Nat) : Bool := s.start ≤ offset && offset < s.stop

/-- The smallest span that covers both. -/
def merge (s t : Span) : Span := ⟨min s.start t.start, max s.stop t.stop⟩

/-- The covered text, if the span lies within `text` and on character boundaries. -/
def slice? (s : Span) (text : String) : Option String :=
  (Text.slice text.toList s.start s.stop).map String.ofList

/-- A span is written as its two offsets with two points between them. -/
def render (s : Span) : String := s!"{s.start}..{s.stop}"

/-- An offset within either of two spans lies within their merge. -/
theorem contains_merge {s t : Span} {offset : Nat}
    (h : s.contains offset = true ∨ t.contains offset = true) :
    (s.merge t).contains offset = true := by
  simp only [contains, Bool.and_eq_true, decide_eq_true_eq] at h
  have hlo : min s.start t.start ≤ offset := by omega
  have hhi : offset < max s.stop t.stop := by omega
  simp [contains, merge, hlo, hhi]

end Span

/-- A span of a text together with the text it covers. -/
structure SyntaxRange where
  start : Nat
  stop : Nat
  text : String
  deriving DecidableEq, Repr, Inhabited

namespace SyntaxRange

/-- The span of the range. -/
def span (r : SyntaxRange) : Span := ⟨r.start, r.stop⟩

/--
The range of `source` under `span`. A span that reaches past the end is clamped to it, and one
that cuts through a character gets no text.
-/
def capture (source : String) (span : Span) : SyntaxRange :=
  let stop := min span.stop (byteLength source.toList)
  let start := min span.start stop
  { start, stop, text := ((Span.mk start stop).slice? source).getD "" }

/-- However stale the span, a captured range lies within its text. -/
theorem capture_bounds (source : String) (span : Span) :
    (capture source span).start ≤ (capture source span).stop ∧
      (capture source span).stop ≤ byteLength source.toList :=
  ⟨Nat.min_le_right _ _, Nat.min_le_right _ _⟩

end SyntaxRange

end Palette
