import Palette.Proofs.Grammar.Highlighting
import Palette.Proofs.Lexer.Tiling
import Palette.Text.Position

/-!
# Places of lexical errors

An error counts its line and its column in the text in front of it: the line feeds there, and the
characters behind the last of them. These are the numbers that a reader of the text comes to who
counts along (`LexError.place_unmatched`). Whoever is given only the two numbers finds the place
again: line by line to the beginning of the line, and from there character by character. This is
what `offsetAt?` does. It refuses numbers that lead beyond the text, and columns that lead beyond
their line.

What stands in front of a place is some lines that have ended and the beginning of one that has not
(`exists_lines`). So many lines and so many characters are counted (`Position.after_lines`), and so
many are passed over again (`offsetAt?_lines`), whatever their width in bytes.

Behind at least one more character the line is a later one, or it is the same and the column is a
later one (`Position.precedes_after`). Errors are non-empty and follow each other, and so do their
places.

Main statement: `Vocabulary.errors_placed`.
-/

namespace Palette

namespace Text

/-! ## Finding a place -/

/-- What follows the next so many line feeds, with the number of bytes up to there. -/
def skipLines : Nat → List Char → Option (Nat × List Char)
  | 0, text => some (0, text)
  | _ + 1, [] => none
  | n + 1, c :: rest =>
    (skipLines (if c = '\n' then n else n + 1) rest).map fun (bytes, left) =>
      (c.utf8Size + bytes, left)

/-- The number of bytes of the next so many characters, if the line has as many left. -/
def bytesInLine : Nat → List Char → Option Nat
  | 0, _ => some 0
  | _ + 1, [] => none
  | n + 1, c :: rest => if c = '\n' then none else (bytesInLine n rest).map (c.utf8Size + ·)

/-- The offset of the place in the given line and column, both counted from one, if there is one. -/
def offsetAt? (text : List Char) : (line column : Nat) → Option Nat
  | line + 1, column + 1 => do
    let (start, rest) ← skipLines line text
    let bytes ← bytesInLine column rest
    return start + bytes
  | _, _ => none

/-- Lines one behind the other, each with a line feed at its end. -/
def ended (lines : List (List Char)) : List Char := lines.flatMap (· ++ ['\n'])

theorem ended_cons (line : List Char) (lines : List (List Char)) :
    ended (line :: lines) = line ++ '\n' :: ended lines := by
  simp [ended]

theorem ended_concat (lines : List (List Char)) (line : List Char) :
    ended (lines ++ [line]) = ended lines ++ line ++ ['\n'] := by
  simp [ended]

/-- Every text is lines that have ended and the beginning of one that has not. -/
theorem exists_lines (text : List Char) :
    ∃ lines begun, (∀ line ∈ lines, '\n' ∉ line) ∧ '\n' ∉ begun ∧ text = ended lines ++ begun := by
  induction text using List.reverseRecOn with
  | nil => exact ⟨[], [], nofun, nofun, rfl⟩
  | append_singleton text c ih =>
    obtain ⟨lines, begun, hlines, hbegun, rfl⟩ := ih
    by_cases hc : c = '\n'
    · refine ⟨lines ++ [begun], [], fun line hline => ?_, nofun, ?_⟩
      · rcases List.mem_append.mp hline with hline | hline
        · exact hlines line hline
        · rwa [List.mem_singleton.mp hline]
      · rw [hc, ended_concat, List.append_nil]
    · refine ⟨lines, begun ++ [c], hlines, fun hmem => ?_, List.append_assoc ..⟩
      rcases List.mem_append.mp hmem with hmem | hmem
      · exact hbegun hmem
      · exact hc (List.mem_singleton.mp hmem).symm

theorem skipLines_cons {line : List Char} (h : '\n' ∉ line) (n : Nat) (rest : List Char) :
    skipLines (n + 1) (line ++ '\n' :: rest) =
      (skipLines n rest).map fun (bytes, left) => (byteLength line + 1 + bytes, left) := by
  induction line with
  | nil => simp [skipLines, show '\n'.utf8Size = 1 from rfl]
  | cons c line ih =>
    have hc : c ≠ '\n' := fun hc => h (hc ▸ List.mem_cons_self)
    rw [List.cons_append, skipLines, if_neg hc, ih fun hmem => h (List.mem_cons_of_mem c hmem),
      Option.map_map]
    refine congrArg (Option.map · _) (funext fun (bytes, left) => ?_)
    simp [Nat.add_assoc]

/-- So many lines are passed over as there are. -/
theorem skipLines_ended {lines : List (List Char)} (h : ∀ line ∈ lines, '\n' ∉ line)
    (rest : List Char) :
    skipLines lines.length (ended lines ++ rest) = some (byteLength (ended lines), rest) := by
  induction lines with
  | nil => simp [ended, skipLines]
  | cons line lines ih =>
    rw [ended_cons, List.append_assoc, List.cons_append, List.length_cons,
      skipLines_cons (h line List.mem_cons_self),
      ih fun l hl => h l (List.mem_cons_of_mem line hl)]
    simp [Nat.add_assoc, show '\n'.utf8Size = 1 from rfl]

theorem bytesInLine_append {begun : List Char} (h : '\n' ∉ begun) (rest : List Char) :
    bytesInLine begun.length (begun ++ rest) = some (byteLength begun) := by
  induction begun with
  | nil => simp [bytesInLine]
  | cons c begun ih =>
    have hc : c ≠ '\n' := fun hc => h (hc ▸ List.mem_cons_self)
    rw [List.cons_append, List.length_cons, bytesInLine, if_neg hc,
      ih fun hmem => h (List.mem_cons_of_mem c hmem)]
    rfl

/-- Behind some lines and the beginning of another, the place is found again. -/
theorem offsetAt?_lines {lines : List (List Char)} {begun : List Char}
    (hlines : ∀ line ∈ lines, '\n' ∉ line) (hbegun : '\n' ∉ begun) (rest : List Char) :
    offsetAt? (ended lines ++ begun ++ rest) (lines.length + 1) (begun.length + 1) =
      some (byteLength (ended lines ++ begun)) := by
  rw [offsetAt?, List.append_assoc, skipLines_ended hlines]
  simp [bytesInLine_append hbegun]

/-- In the second line, behind a character of two bytes; and there is no third character in it. -/
example : offsetAt? "a\néb\nc".toList 2 2 = some 4 ∧ offsetAt? "a\néb\nc".toList 2 4 = none := by
  decide

namespace Position

/-! ## Counting -/

theorem column_after_ended (lines : List (List Char)) :
    (start.after (ended lines)).column = 1 := by
  induction lines using List.reverseRecOn with
  | nil => rfl
  | append_singleton lines line ih =>
    rw [ended_concat, after_append, after_cons, after_nil, next, if_pos rfl]

theorem count_ended {lines : List (List Char)} (h : ∀ line ∈ lines, '\n' ∉ line) :
    (ended lines).count '\n' = lines.length := by
  induction lines with
  | nil => rfl
  | cons line lines ih =>
    rw [ended_cons, List.count_append, List.count_cons_self,
      List.count_eq_zero.mpr (h line List.mem_cons_self),
      ih fun l hl => h l (List.mem_cons_of_mem line hl), List.length_cons, Nat.zero_add]

/-- Behind some lines and the beginning of another, all of them are counted. -/
theorem after_lines {lines : List (List Char)} {begun : List Char}
    (hlines : ∀ line ∈ lines, '\n' ∉ line) (hbegun : '\n' ∉ begun) :
    start.after (ended lines ++ begun) =
      ⟨byteLength (ended lines ++ begun), lines.length + 1, begun.length + 1⟩ := by
  have hoffset := offset_after start (ended lines ++ begun)
  have hline := line_after start (ended lines ++ begun)
  have hcolumn := column_after (start.after (ended lines)) hbegun
  rw [List.count_append, count_ended hlines, List.count_eq_zero.mpr hbegun] at hline
  rw [← after_append, column_after_ended] at hcolumn
  generalize start.after (ended lines ++ begun) = place at *
  cases place
  simp_all [start, Nat.add_comm]

/-- **A place is found again by its line and its column.** -/
theorem offsetAt?_after (front rest : List Char) :
    offsetAt? (front ++ rest) (start.after front).line (start.after front).column =
      some (start.after front).offset := by
  obtain ⟨lines, begun, hlines, hbegun, rfl⟩ := exists_lines front
  rw [after_lines hlines hbegun]
  exact offsetAt?_lines hlines hbegun rest

/-- By line, and within a line by column. -/
def Precedes (p q : Position) : Prop := p.line < q.line ∨ p.line = q.line ∧ p.column < q.column

/-- A place precedes those behind it. -/
theorem precedes_after (p : Position) {text : List Char} (h : text ≠ []) :
    p.Precedes (p.after text) := by
  by_cases hfeed : '\n' ∈ text
  · have hcount : 0 < text.count '\n' := List.count_pos_iff.mpr hfeed
    refine .inl ?_
    rw [line_after]
    omega
  · have hlength : 0 < text.length := List.length_pos_iff.mpr h
    refine .inr ⟨?_, ?_⟩
    · rw [line_after, List.count_eq_zero.mpr hfeed, Nat.add_zero]
    · rw [column_after p hfeed]
      omega

end Position

end Text

open Text

/-! ## Errors -/

/-- Behind some lines that have ended, the beginning of another is the last one. -/
theorem Text.lastLine_lines {begun : List Char} (h : '\n' ∉ begun) (lines : List (List Char)) :
    lastLine (ended lines ++ begun) = begun := by
  have hbegun : ∀ c ∈ begun.reverse, (c != '\n') = true := fun c hc =>
    bne_iff_ne.mpr fun heq => h (heq ▸ List.mem_reverse.mp hc)
  have hended : (ended lines).reverse.takeWhile (· != '\n') = [] := by
    induction lines using List.reverseRecOn with
    | nil => rfl
    | append_singleton lines line => simp [ended_concat]
  rw [lastLine, List.reverse_append, List.takeWhile_append_of_pos hbegun, hended, List.append_nil,
    List.reverse_reverse]

/-- Two fronts of one text, the second of which has more bytes. -/
theorem Text.exists_append_of_byteLength_lt {a b c d : List Char} (h : a ++ b = c ++ d)
    (hlt : byteLength a < byteLength c) : ∃ x, x ≠ [] ∧ c = a ++ x := by
  rcases List.append_eq_append_iff.mp h with ⟨x, rfl, -⟩ | ⟨x, rfl, -⟩
  · refine ⟨x, ?_, rfl⟩
    rintro rfl
    simp at hlt
  · rw [byteLength_append] at hlt
    omega

namespace LexError

/-- The position of the first character. -/
def place (e : LexError) : Position := ⟨e.offset, e.line, e.column⟩

/-- **The counts in the text in front of an error are those of reading along.** -/
theorem place_unmatched (front rest : List Char) (stop : Nat) :
    (unmatched (front ++ rest) (byteLength front) stop).place = Position.start.after front := by
  obtain ⟨lines, begun, hlines, hbegun, rfl⟩ := exists_lines front
  have hcount : (ended lines ++ begun).count '\n' = lines.length := by
    rw [List.count_append, Position.count_ended hlines, List.count_eq_zero.mpr hbegun, Nat.add_zero]
  rw [Position.after_lines hlines hbegun, place, unmatched, takeBytes_append, Option.getD_some,
    hcount, lastLine_lines hbegun]

/-- Errors that are found again in a text by line and column, and stand in the order of these. -/
structure Placed (text : List Char) (errors : List LexError) : Prop where
  located : ∀ e ∈ errors, offsetAt? text e.line e.column = some e.offset
  ordered : errors.Pairwise fun e f => e.line < f.line ∨ e.line = f.line ∧ e.column < f.column

end LexError

namespace Piece.Laid

variable {text : List Char} {pieces : List Piece}

/-- Every error has the position behind what stands in front of it. -/
theorem exists_front (h : Laid [] text pieces) {e : LexError}
    (he : e ∈ pieces.filterMap (·.error? text)) :
    ∃ front rest, text = front ++ rest ∧ e.place = Position.start.after front := by
  obtain ⟨p, hp, herror⟩ := List.mem_filterMap.mp he
  obtain ⟨front, chars, behind, htext, -, hplace⟩ := h.exists_place hp
  cases p with
  | token type start image => cases herror
  | unmatched start stop =>
    cases herror
    obtain ⟨rfl, -⟩ := hplace
    refine ⟨front, chars ++ behind, htext, ?_⟩
    rw [htext]
    exact LexError.place_unmatched front (chars ++ behind) stop

theorem placed_errors (h : Laid [] text pieces) :
    LexError.Placed text (pieces.filterMap (·.error? text)) where
  located := by
    intro e he
    obtain ⟨front, rest, rfl, hplace⟩ := h.exists_front he
    have hfound := Position.offsetAt?_after front rest
    rwa [← hplace] at hfound
  ordered := by
    refine h.pairwise_errors.1.imp_of_mem fun {e f} he hf hapart => ?_
    obtain ⟨front, rest, rfl, hplace⟩ := h.exists_front he
    obtain ⟨front', rest', htext, hplace'⟩ := h.exists_front hf
    -- what stands in front of the later error goes on behind the front of the earlier one
    have hoffset : e.offset = byteLength front := by
      have := congrArg Position.offset hplace
      rwa [Position.offset_after, Position.start, Nat.zero_add] at this
    have hoffset' : f.offset = byteLength front' := by
      have := congrArg Position.offset hplace'
      rwa [Position.offset_after, Position.start, Nat.zero_add] at this
    have hlater : byteLength front < byteLength front' := by
      rw [← hoffset, ← hoffset']
      exact Nat.lt_of_le_of_lt (Nat.le_add_right e.offset e.length) hapart
    obtain ⟨between, hsome, rfl⟩ := exists_append_of_byteLength_lt htext hlater
    have hprecedes := (Position.start.after front).precedes_after hsome
    rwa [← Position.after_append, ← hplace, ← hplace'] at hprecedes

end Piece.Laid

/-- **Line and column locate an error.** From the beginning of its line, the characters in front of
its column are all in this line and lead to its offset; and later errors have later lines, or later
columns of the same line. That holds of highlighting and of parsing, whatever the searches of the
types answer. -/
theorem Vocabulary.errors_placed (v : Vocabulary) (text : String) :
    LexError.Placed text.toList (v.highlightData text).errors ∧
      LexError.Placed text.toList (v.tokenize text).errors := by
  have hplaced : LexError.Placed text.toList (v.highlightData text).errors :=
    (v.laid_scan text.toList).placed_errors
  refine ⟨hplaced, ?_⟩
  rwa [v.errors_tokenize text]

end Palette
