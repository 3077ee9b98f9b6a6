import Palette.Pattern.Basic

/-!
# The weight of patterns

The weight of a pattern is the memory, in bytes, of an automaton for it that reads UTF-8 backwards
byte by byte, with every counted round laid out. It bounds what a notation may ask for: a pattern
heavier than `maxWeight` is refused. The weight is computed without laying anything out, so that
refusing a pattern is cheap.

A state takes 32 bytes and each way out of a fork four more. A set of characters takes a state for
each distinct beginning of its byte sequences; a set within ASCII is one state with a table.
-/

namespace Palette

open Unicode

namespace CharSet

/-- The code points of the set as a table. -/
def ranges : CharSet → Ranges
  | none => []
  | range first last => if first ≤ last then [(first.toNat, last.toNat)] else []
  | digit => digitRanges
  | blank => blankRanges
  | word => wordRanges
  | union a b => .ofUnsorted (a.ranges ++ b.ranges)
  | inter a b => (Ranges.ofUnsorted (a.ranges.gaps 0 ++ b.ranges.gaps 0)).gaps 0
  | compl a => a.ranges.gaps 0
  | folded a => foldRanges a.ranges

end CharSet

namespace Pattern

/-- Inclusive ranges of bytes, one for each place of a sequence. -/
abbrev ByteRanges := List (Nat × Nat)

/--
The code points from `a` to `b` as byte sequences, where `more` bytes of six bits follow the first
one, which has the marks `lead` in its upper bits. Ranges that do not fill the bytes behind a first
byte are cut at both ends.
-/
def byteSequences (lead a b : Nat) : Nat → List ByteRanges
  | 0 => [[(lead + a, lead + b)]]
  | more + 1 =>
    let unit := 1 <<< (6 * (more + 1))
    let behind (first a b : Nat) : List ByteRanges :=
      (byteSequences 0x80 a b more).map ((lead + first, lead + first) :: ·)
    let first := a / unit
    let last := b / unit
    if first = last then behind first (a % unit) (b % unit)
    else
      let start := if a % unit = 0 then [] else behind first (a % unit) (unit - 1)
      let stop := if b % unit = unit - 1 then [] else behind last 0 (b % unit)
      let low := if a % unit = 0 then first else first + 1
      let high := if b % unit = unit - 1 then last + 1 else last
      let middle :=
        if low < high then
          [(lead + low, lead + high - 1) :: List.replicate (more + 1) (0x80, 0xBF)]
        else []
      start ++ middle ++ stop

/-- The code points that take one to four bytes, surrogates left out, with the marks of the first. -/
def encodedLengths : List (Nat × Nat × Nat × Nat) :=
  [(0, 0x7F, 0, 0), (0x80, 0x7FF, 0xC0, 1), (0x800, 0xD7FF, 0xE0, 2), (0xE000, 0xFFFF, 0xE0, 2),
    (0x10000, 0x10FFFF, 0xF0, 3)]

/-- The byte sequences of a table, in order. -/
def encodedRanges (t : Ranges) : List ByteRanges :=
  t.flatMap fun (a, b) =>
    encodedLengths.flatMap fun (least, greatest, lead, more) =>
      let a := max a least
      let b := min b greatest
      if a ≤ b then byteSequences lead a b more else []

/-- The length of the common beginning of two sequences. -/
def commonLength : ByteRanges → ByteRanges → Nat
  | r :: rs, s :: ss => if r = s then commonLength rs ss + 1 else 0
  | _, _ => 0

/-- The number of distinct beginnings of sequences in order, the empty one left out. -/
def countBeginnings (previous : ByteRanges) : List ByteRanges → Nat
  | [] => 0
  | s :: rest => s.length - commonLength previous s + countBeginnings s rest

/-- The weight of reading one character of a table. -/
def setWeight (t : Ranges) : Nat :=
  let sequences := encodedRanges t
  match t with
  | [] => 32
  | [(a, b)] =>
    if a = b then 32 * (sequences.map List.length).foldl (· + ·) 0
    else if b < 0x80 then 72
    else 32 * (countBeginnings [] sequences + 2) + 4 * sequences.length
  | _ =>
    if t.all (·.2 < 0x80) then 64 + 8 * t.length
    else 32 * (countBeginnings [] sequences + 2) + 4 * sequences.length

/-- The weight of a repetition of something of weight `body`. -/
def roundsWeight (least : Nat) (most : Option Nat) (mayBeEmpty : Bool) (body : Nat) : Nat :=
  match least, most with
  | 0, some 1 => 72 + body
  | 0, none => if mayBeEmpty then 112 + body else 40 + body
  | least, none => least * body + 40
  | least, some most =>
    let required := if least = 0 then 32 else least * body
    if least < most then required + 32 + (most - least) * (40 + body) else required

/-- The weight of a pattern. -/
def weight : Pattern → Nat
  | empty => 32
  | char set => setWeight set.ranges
  | check _ => 32
  | seq p q => p.weight + q.weight
  | alt p q => 72 + p.weight + q.weight
  | times least most _ p => roundsWeight least most p.mayBeEmpty p.weight
  | group _ p => 64 + p.weight

/-- The greatest weight of a pattern: ten mebibytes. -/
def maxWeight : Nat := 10 * 1024 * 1024

end Pattern

end Palette
