import Palette.Text.Bytes

/-!
# Positions in a text

A position is counted in bytes and also in lines and columns by whoever reads along. Lines end with
line feeds; lines and columns count from one, columns in characters.

`after` moves a position behind a piece of text. Moving behind two pieces is moving behind both
joined (`after_append`), and each of the three counts is told by the piece alone (`offset_after`,
`line_after`, `column_after`).
-/

namespace Palette.Text

/-- A position between two characters of a text. -/
structure Position where
  /-- The number of bytes before it. -/
  offset : Nat
  line : Nat
  column : Nat
  deriving DecidableEq, Repr

namespace Position

/-- The front of the text. -/
def start : Position := { offset := 0, line := 1, column := 1 }

/-- The position behind the next character. -/
def next (p : Position) (c : Char) : Position :=
  if c = '\n' then { offset := p.offset + c.utf8Size, line := p.line + 1, column := 1 }
  else { p with offset := p.offset + c.utf8Size, column := p.column + 1 }

/-- The position behind the next characters. -/
def after (p : Position) (text : List Char) : Position := text.foldl next p

@[simp] theorem after_nil (p : Position) : p.after [] = p := rfl

@[simp] theorem after_cons (p : Position) (c : Char) (text : List Char) :
    p.after (c :: text) = (p.next c).after text := rfl

theorem after_append (p : Position) (a b : List Char) : p.after (a ++ b) = (p.after a).after b :=
  List.foldl_append

@[simp] theorem offset_after (p : Position) (text : List Char) :
    (p.after text).offset = p.offset + byteLength text := by
  induction text generalizing p with
  | nil => rfl
  | cons c text ih =>
    rw [after_cons, ih, byteLength_cons, ← Nat.add_assoc]
    unfold next
    split <;> rfl

theorem line_after (p : Position) (text : List Char) :
    (p.after text).line = p.line + text.count '\n' := by
  induction text generalizing p with
  | nil => rfl
  | cons c text ih =>
    rw [after_cons, ih, List.count_cons]
    unfold next
    split
    · next hc =>
      simp only [hc, beq_self_eq_true, ↓reduceIte]
      omega
    · next hc => simp [hc]

/-- Within a line the column grows with every character. -/
theorem column_after (p : Position) {text : List Char} (h : '\n' ∉ text) :
    (p.after text).column = p.column + text.length := by
  induction text generalizing p with
  | nil => rfl
  | cons c text ih =>
    have hc : c ≠ '\n' := fun hc => h (hc ▸ List.mem_cons_self)
    rw [after_cons, ih _ (fun hm => h (List.mem_cons_of_mem _ hm)), next, if_neg hc,
      List.length_cons]
    exact Nat.add_right_comm ..

end Position

end Palette.Text
