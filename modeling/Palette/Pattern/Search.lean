import Palette.Pattern.Matching
import Palette.Pattern.Notation

/-!
# Searching for patterns

What a lexer needs of a pattern is a way of searching for it. Any engine that makes one of a
pattern's notation will do, and nothing about searching is assumed here. The engine at hand reads
the notation, lays the pattern out as an automaton, and has this one look for its first match
(`Pattern.compile?`).
-/

namespace Palette

/--
A pattern as a way of searching: given the text in front of a place, latest character first, and
the text behind it, the first match from there on, as the number of characters passed over and the
length of the match.
-/
abbrev Search := List Char → List Char → Option (Nat × Nat)

/-- Whether there is a match in the empty text. -/
def Search.matchesEmpty (search : Search) : Bool := (search [] []).isSome

/-- What makes searches of the notations of patterns, or refuses them. -/
abbrev Engine := String → Option Search

/-- The engine that searches by automata. -/
def Pattern.compile? : Engine := fun source =>
  (read? source).map fun p =>
    let a := Automaton.ofPattern p
    a.find

end Palette
