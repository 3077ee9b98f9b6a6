import Palette.Unicode.Blank
import Palette.Unicode.Digit
import Palette.Unicode.Folding
import Palette.Unicode.Word

/-!
# Sets of characters

A character set is kept as the expression that a pattern writes it with, not as a list of
ranges, so that sets are small and comparing two of them is cheap. `contains` gives it meaning.
-/

namespace Palette

open Unicode

/-- An expression for a set of characters. -/
inductive CharSet where
  /-- No character. -/
  | none
  /-- The characters from `first` to `last`. -/
  | range (first last : Char)
  /-- Decimal digits. -/
  | digit
  /-- White space. -/
  | blank
  /-- Word characters. -/
  | word
  | union (a b : CharSet)
  | inter (a b : CharSet)
  | compl (a : CharSet)
  /-- The characters that differ from one of the set in case only. -/
  | folded (a : CharSet)
  deriving DecidableEq, Repr, Inhabited

namespace CharSet

/-- Whether `c` belongs to the set. -/
def contains : CharSet → Char → Bool
  | none, _ => false
  | range first last, c => first ≤ c && c ≤ last
  | digit, c => isDecimalDigit c
  | blank, c => isBlank c
  | word, c => isWord c
  | union a b, c => a.contains c || b.contains c
  | inter a b, c => a.contains c && b.contains c
  | compl a, c => !a.contains c
  | folded a, c => (foldOrbit c).any a.contains

/-- The set of one character. -/
def single (c : Char) : CharSet := range c c

/-- The characters of `a` that are not in `b`. -/
def diff (a b : CharSet) : CharSet := inter a (compl b)

/-- The characters of exactly one of the two sets. -/
def symmDiff (a b : CharSet) : CharSet := union (diff a b) (diff b a)

/-- The union of several sets. -/
def unions : List CharSet → CharSet
  | [] => none
  | [a] => a
  | a :: rest => union a (unions rest)

/-- Every character but the line feed. -/
def notNewline : CharSet := compl (single '\n')

/-- Every character. -/
def all : CharSet := compl none

@[simp] theorem contains_single (a c : Char) : (single a).contains c = (a == c) := by
  simp only [single, contains]
  by_cases h : a = c
  · subst h; simp
  · have : ¬ (a ≤ c ∧ c ≤ a) := fun ⟨h1, h2⟩ => h (Char.le_antisymm h1 h2)
    simp only [beq_eq_false_iff_ne.mpr h]
    simpa using this

@[simp] theorem contains_all (c : Char) : all.contains c = true := rfl

theorem contains_unions (sets : List CharSet) (c : Char) :
    (unions sets).contains c = sets.any (·.contains c) := by
  induction sets with
  | nil => rfl
  | cons a rest ih =>
    cases rest with
    | nil => simp [unions]
    | cons b rest => simp [unions, contains, ih]

end CharSet

end Palette
