import Palette.Pattern.Automaton

/-!
# Matching

`matchLength a before text` is the length, in characters, of the piece that the automaton prefers
among those that `text` starts with; `before` is the character in front of it. The search follows
all ways through the automaton at once, ordered by preference:

* `reach` lists the places with something to read, to check or to complete that the given places
  lead to without reading. A place that was met on a preferred way is not met again, so a round of
  a repetition that reads nothing leads nowhere new;
* an assertion about the character in front is settled when its place is reached. The others
  wait: `settled` takes them up when the next character is known, if one of them holds then;
* a complete piece drops every way that is less preferred, and the last piece completed is the
  answer.

`firstMatch` and `find` look for the first position where the automaton matches.

## Termination

`reachFrom` meets each place once: at every step a place is met that was not, or one place less is
left to visit. All other functions recurse on the text.
-/

namespace Palette.Automaton

/-- Meeting a place leaves fewer places that were not met. -/
theorem count_set_lt {met : Array Bool} {i : Nat} (h : met[i]? = some false) :
    (met.set i true (Array.getElem?_eq_some_iff.mp h).1).count false < met.count false := by
  obtain ⟨hi, hmet⟩ := Array.getElem?_eq_some_iff.mp h
  have hmem : false ∈ met := hmet ▸ Array.getElem_mem hi
  have hpos := Array.count_pos_iff.mpr hmem
  rw [Array.count_set]
  simp only [hmet, beq_self_eq_true, ↓reduceIte]
  simp only [Bool.true_beq, Bool.false_eq_true, ↓reduceIte]
  omega

/--
Visits the places of `todo` and what they lead to. `met` tells which places were met, and `found`
holds those with something to do, the latest first.
-/
def reachFrom (a : Automaton) (holds : Assertion → Bool) (todo : List Nat) (met : Array Bool)
    (found : List Nat) : List Nat :=
  match todo with
  | [] => found.reverse
  | i :: todo =>
    if h : met[i]? = some false then
      let now := met.set i true (Array.getElem?_eq_some_iff.mp h).1
      match a.places[i]? with
      | some (.fork first second) => reachFrom a holds (first :: second :: todo) now found
      | some (.check assertion next) =>
        if holds assertion then reachFrom a holds (next :: todo) now (i :: found)
        else reachFrom a holds todo now (i :: found)
      | _ => reachFrom a holds todo now (i :: found)
    else reachFrom a holds todo met found
termination_by (met.count false, todo.length)
decreasing_by
  · exact .left _ _ (count_set_lt h)
  · exact .left _ _ (count_set_lt h)
  · exact .left _ _ (count_set_lt h)
  · exact .left _ _ (count_set_lt h)
  · exact .right _ (Nat.lt_succ_self _)

/-- The places with something to do that the given places lead to, by preference. -/
def reach (a : Automaton) (holds : Assertion → Bool) (todo : List Nat) : List Nat :=
  reachFrom a holds todo (Array.replicate a.places.size false) []

/-- Whether an assertion waits at the place that holds now and was not settled before. -/
def isDue (a : Automaton) (gap : Gap) (i : Nat) : Bool :=
  match a.places[i]? with
  | some (.check assertion _) => gap.satisfies assertion && !gap.settles assertion
  | _ => false

/-- The places with something to do, now that both sides of the position are known. -/
def settled (a : Automaton) (gap : Gap) (front : List Nat) : List Nat :=
  if front.any (a.isDue gap) then a.reach gap.satisfies front else front

/-- Whether a piece is complete at the place. -/
def isDone (a : Automaton) (i : Nat) : Bool :=
  match a.places[i]? with
  | some .done => true
  | _ => false

/-- Where reading `c` leads to from the place. -/
def next? (a : Automaton) (c : Char) (i : Nat) : Option Nat :=
  match a.places[i]? with
  | some (.read set next) => if set.contains c then some next else none
  | _ => none

/--
Follows the places of `front` through the text. `taken` characters are read, the last of them, or
the one before the first, is `before`, and `best` is the length of the last piece completed.
-/
def follow (a : Automaton) (before : Option Char) (front : List Nat) (taken : Nat)
    (best : Option Nat) : List Char → Option Nat
  | [] => if (a.settled ⟨before, none⟩ front).any a.isDone then some taken else best
  | c :: text =>
    let front := a.settled ⟨before, some c⟩ front
    let best := if front.any a.isDone then some taken else best
    let todo := (front.takeWhile fun i => !a.isDone i).filterMap (a.next? c)
    if todo.isEmpty then best
    else follow a (some c) (a.reach (Gap.settles ⟨some c, none⟩) todo) (taken + 1) best text

/-- The length of the preferred piece at the front of `text`. -/
def matchLength (a : Automaton) (before : Option Char) (text : List Char) : Option Nat :=
  a.follow before (a.reach (Gap.settles ⟨before, none⟩) [a.start]) 0 none text

/--
The first position where the automaton matches, as the number of characters to skip, and the
length of the piece there.
-/
def firstMatch (a : Automaton) (before : Option Char) (text : List Char) : Option (Nat × Nat) :=
  match a.matchLength before text with
  | some length => some (0, length)
  | none =>
    match text with
    | [] => none
    | c :: rest => (firstMatch a (some c) rest).map fun (skip, length) => (skip + 1, length)

/--
The first match behind the characters of `before`, the latest of which comes first; only that one
makes a difference.
-/
def find (a : Automaton) (before text : List Char) : Option (Nat × Nat) :=
  a.firstMatch before.head? text

/-- On the way, a piece is never longer than what was read and what is left to read. -/
theorem follow_le {a : Automaton} {before : Option Char} {front : List Nat} {taken : Nat}
    {best : Option Nat} {text : List Char} {n : Nat}
    (h : a.follow before front taken best text = some n)
    (hb : ∀ b, best = some b → b ≤ taken + text.length) : n ≤ taken + text.length := by
  induction text generalizing before front taken best with
  | nil =>
    rw [follow] at h
    split at h
    · simp_all
    · exact hb n h
  | cons c text ih =>
    rw [follow] at h
    split at h
    · split at h
      · simp only [Option.some.injEq] at h; omega
      · exact hb n h
    · have := ih h (by
        intro b hbest
        split at hbest
        · simp only [Option.some.injEq] at hbest; omega
        · have := hb b hbest
          simp only [List.length_cons] at this
          omega)
      simp only [List.length_cons]
      omega

/-- A piece is never longer than the text. -/
theorem matchLength_le {a : Automaton} {before : Option Char} {text : List Char} {n : Nat}
    (h : a.matchLength before text = some n) : n ≤ text.length := by
  have := follow_le h (by simp)
  omega

end Palette.Automaton
