import Mathlib.Data.List.Forall2
import Palette.Lexer.Basic
import Palette.Proofs.Vocabulary.Built

/-!
# Horizons make no difference

A scan remembers for every type where it can match next, and does not look for it before. The plain
scan remembers nothing: at every place it asks each type, in order, how long its match is that
starts there. It keeps no run under way either; a character that no type matches is joined to the
run that the rest of the text begins with.

What ties the two together is that a search is *leftmost*: it finds the first place where there is a
match, and whether there is one at a place, and how long it is, does not depend on where the search
began. Then a horizon is *sound*, no match of its type starts before it, and stays so through every
step of the scan.

Main statement: both scans cut every text into the same pieces (`scan_eq_plainScan`). The searches
of automata are leftmost (`leftmost_ofDefs`).
-/

namespace Palette

open Text

namespace Search

/-- How long the match is that starts at a place, if there is one. The place is given by the text in
front of it, latest character first, and the text behind it. -/
def lengthAt (search : Search) (before text : List Char) : Option Nat :=
  match search before text with
  | some (0, length) => some length
  | _ => none

/--
The first match from a place on: `skip` characters are passed over, at none of which there is a
match, and then there is one of the given length.
-/
def First (search : Search) (before text : List Char) (skip length : Nat) : Prop :=
  ∃ x y, text = x ++ y ∧ x.length = skip ∧ search.lengthAt (x.reverse ++ before) y = some length ∧
    ∀ x' y', text = x' ++ y' → x'.length < skip →
      search.lengthAt (x'.reverse ++ before) y' = none

/-- A search is leftmost when, wherever it begins, it finds the first place where a match starts,
and the match that starts there does not depend on where it began. -/
def Leftmost (search : Search) : Prop :=
  ∀ (before text : List Char) (skip length : Nat),
    search before text = some (skip, length) ↔ search.First before text skip length

variable {search : Search} {before text : List Char} {length : Nat}

theorem lengthAt_eq_some : search.lengthAt before text = some length ↔
    search before text = some (0, length) := by
  rw [lengthAt]
  split
  · next n h => simp [h]
  · next h => exact ⟨nofun, fun hfound => absurd hfound (h length)⟩

theorem first_zero : search.First before text 0 length ↔
    search.lengthAt before text = some length := by
  constructor
  · rintro ⟨x, y, rfl, hx, hl, -⟩
    obtain rfl := List.length_eq_zero_iff.mp hx
    exact hl
  · intro hl
    exact ⟨[], text, rfl, rfl, hl, fun _ _ _ hlt => absurd hlt (Nat.not_lt_zero _)⟩

theorem not_first_nil {skip : Nat} : ¬search.First before [] (skip + 1) length := by
  rintro ⟨x, y, hxy, hx, -⟩
  obtain ⟨rfl, -⟩ := List.append_eq_nil_iff.mp hxy.symm
  exact absurd hx (Nat.succ_ne_zero skip).symm

theorem first_cons {c : Char} {skip : Nat} :
    search.First before (c :: text) (skip + 1) length ↔
      search.lengthAt before (c :: text) = none ∧
        search.First (c :: before) text skip length := by
  constructor
  · rintro ⟨x, y, hxy, hx, hl, hnone⟩
    cases x with
    | nil => cases hx
    | cons d x =>
      obtain ⟨rfl, rfl⟩ := List.cons.inj hxy
      refine ⟨hnone [] _ rfl (Nat.succ_pos skip), x, y, rfl, Nat.succ.inj hx, ?_, ?_⟩
      · rwa [List.reverse_cons, List.append_assoc] at hl
      · intro x' y' hxy' hlt
        have := hnone (c :: x') y' (by rw [hxy', List.cons_append]) (Nat.succ_lt_succ hlt)
        rwa [List.reverse_cons, List.append_assoc] at this
  · rintro ⟨hhere, x, y, rfl, hx, hl, hnone⟩
    refine ⟨c :: x, y, rfl, congrArg Nat.succ hx, ?_, ?_⟩
    · rwa [List.reverse_cons, List.append_assoc]
    · intro x' y' hxy' hlt
      cases x' with
      | nil => rwa [← show c :: (x ++ y) = y' from hxy']
      | cons d x' =>
        obtain ⟨rfl, htail⟩ := List.cons.inj hxy'
        rw [List.reverse_cons, List.append_assoc]
        exact hnone x' y' htail (Nat.lt_of_succ_lt_succ hlt)

end Search

/-! ## The plain scan -/

/-- The pieces behind a passage that no type matches: it is joined to the run that they begin with,
or is a run of its own. -/
def Piece.joinMissed (start stop : Nat) : List Piece → List Piece
  | unmatched _ stop' :: rest => unmatched start stop' :: rest
  | pieces => unmatched start stop :: pieces

namespace Lexer

/-- The first type with a non-empty match at the front of `text`, and the length of the match. -/
def firstType (before text : List Char) : List (TokenType × Search) → Option (TokenType × Nat)
  | [] => none
  | (type, search) :: types =>
    match search.lengthAt before text with
    | some (length + 1) => some (type, length + 1)
    | _ => firstType before text types

/-- The scan that asks every type at every place, behind the characters of `before`. -/
def plainScanFrom (types : List (TokenType × Search)) (before text : List Char) : List Piece :=
  match text with
  | [] => []
  | c :: rest =>
    match firstType before (c :: rest) types with
    | some (type, length) =>
      let image := c :: rest.take (length - 1)
      .token type (byteLength before) image ::
        plainScanFrom types (image.reverse ++ before) (rest.drop (length - 1))
    | none =>
      Piece.joinMissed (byteLength before) (byteLength (c :: before))
        (plainScanFrom types (c :: before) rest)
termination_by text.length
decreasing_by
  · simp only [List.length_drop, List.length_cons]; omega
  · simp

end Lexer

/-- The text cut into tokens and unmatched runs, asking every type at every place. -/
def Vocabulary.plainScan (v : Vocabulary) (text : List Char) : List Piece :=
  Lexer.plainScanFrom v.concrete [] text

/-! ## Sound horizons -/

/--
A horizon is sound at a place of the text when no match of the search starts where the horizon rules
one out.
-/
def Horizon.Sound (search : Search) (before text : List Char) (offset : Nat) (h : Horizon) : Prop :=
  ∀ x y, text = x ++ y → h.rulesOut (offset + byteLength x) = true →
    search.lengthAt (x.reverse ++ before) y = none

namespace Horizon.Sound

variable {search : Search} {before text : List Char} {offset : Nat} {h : Horizon}

/-- At the place itself. -/
theorem here (hs : h.Sound search before text offset) (hr : h.rulesOut offset = true) :
    search.lengthAt before text = none :=
  hs [] text rfl hr

/-- What is sound stays so further on in the text. -/
theorem advance {x y : List Char} (hs : h.Sound search before (x ++ y) offset) :
    h.Sound search (x.reverse ++ before) y (offset + byteLength x) := by
  intro u w hy hr
  have := hs (x ++ u) w (by rw [hy, List.append_assoc])
    (by rwa [byteLength_append, ← Nat.add_assoc])
  rwa [List.reverse_append, List.append_assoc] at this

/-- The horizon of a scan that has just begun. -/
theorem front : (Horizon.from 0).Sound search before text offset := by
  intro x y _ hr
  simp [rulesOut] at hr

end Horizon.Sound

/-- A text that has fewer bytes than some first characters of another has fewer characters. -/
theorem Text.length_lt_of_byteLength_lt {text x y : List Char} {n : Nat} (ht : text = x ++ y)
    (h : byteLength x < byteLength (text.take n)) : x.length < n := by
  by_contra hn
  have htake : text.take n = x.take n := by
    rw [ht, List.take_append_of_le_length (Nat.le_of_not_lt hn)]
  have hx : byteLength x = byteLength (x.take n) + byteLength (x.drop n) := by
    rw [← byteLength_append, List.take_append_drop]
  rw [htake] at h
  omega

namespace Search.Leftmost

variable {search : Search} {before text : List Char}

/-- A match further on leaves no match before it. -/
theorem sound_from (hs : search.Leftmost) {skip length : Nat}
    (h : search before text = some (skip, length)) (offset : Nat) :
    (Horizon.from (offset + byteLength (text.take skip))).Sound search before text offset := by
  obtain ⟨-, -, -, -, -, hnone⟩ := (hs before text skip length).mp h
  intro x y hxy hr
  simp only [Horizon.rulesOut, decide_eq_true_eq] at hr
  exact hnone x y hxy (length_lt_of_byteLength_lt hxy (by omega))

/-- A search that finds nothing leaves no match at all. -/
theorem sound_never (hs : search.Leftmost) (h : search before text = none) (offset : Nat) :
    Horizon.never.Sound search before text offset := by
  intro x y hxy hr
  clear hr
  -- otherwise the match that begins first would have been found
  induction hn : x.length using Nat.strongRecOn generalizing x y with
  | _ n ih =>
    cases hl : search.lengthAt (x.reverse ++ before) y with
    | none => rfl
    | some length =>
      have hfound : search before text = some (n, length) :=
        (hs before text n length).mpr
          ⟨x, y, hxy, hn, hl, fun x' y' hxy' hlt => ih _ hlt x' y' hxy' rfl⟩
      rw [h] at hfound
      cases hfound

end Search.Leftmost

/-! ## Step and scan -/

namespace Lexer

/-- The horizons of a scan at a place, one for each type and all of them sound. -/
abbrev SoundHorizons (before text : List Char) (offset : Nat) :
    List (TokenType × Search) → List Horizon → Prop :=
  List.Forall₂ fun entry h => h.Sound entry.2 before text offset

theorem soundHorizons_front (text : List Char) (types : List (TokenType × Search)) :
    SoundHorizons [] text 0 types (types.map fun _ => .from 0) := by
  induction types with
  | nil => exact .nil
  | cons entry types ih => exact .cons .front ih

theorem SoundHorizons.advance {before x y : List Char} {offset : Nat}
    {types : List (TokenType × Search)} {horizons : List Horizon}
    (h : SoundHorizons before (x ++ y) offset types horizons) :
    SoundHorizons (x.reverse ++ before) y (offset + byteLength x) types horizons :=
  h.imp fun _ _ hs => hs.advance

/-- With sound horizons a step finds what the plain scan finds, and leaves them sound. -/
theorem matchAt_spec {before text : List Char} {offset : Nat}
    {types : List (TokenType × Search)} {horizons : List Horizon}
    (hl : ∀ entry ∈ types, entry.2.Leftmost)
    (hs : SoundHorizons before text offset types horizons) :
    (matchAt before text offset types horizons).1 = firstType before text types ∧
      SoundHorizons before text offset types (matchAt before text offset types horizons).2 := by
  induction hs with
  | nil => exact ⟨rfl, .nil⟩
  | @cons entry h types horizons hsound hrest ih =>
    obtain ⟨type, search⟩ := entry
    obtain ⟨hleft, hothers⟩ := List.forall_mem_cons.mp hl
    obtain ⟨ihmatch, ihsound⟩ := ih hothers
    rw [matchAt, firstType]
    by_cases hr : h.rulesOut offset = true
    · rw [if_pos hr, hsound.here hr]
      exact ⟨ihmatch, .cons hsound ihsound⟩
    · rw [if_neg hr, Search.lengthAt]
      cases hfound : search before text with
      | none => exact ⟨ihmatch, .cons (hleft.sound_never hfound offset) ihsound⟩
      | some found =>
        obtain ⟨skip, length⟩ := found
        cases skip with
        | succ skip => exact ⟨ihmatch, .cons (hleft.sound_from hfound offset) ihsound⟩
        | zero =>
          cases length with
          | zero => exact ⟨ihmatch, .cons hsound ihsound⟩
          | succ length => exact ⟨rfl, .cons hsound hrest⟩

/-- The pieces behind the run that is under way, which began at `start?` and has come to `stop`. -/
def joinRun (start? : Option Nat) (stop : Nat) (pieces : List Piece) : List Piece :=
  match start? with
  | some start => Piece.joinMissed start stop pieces
  | none => pieces

theorem joinRun_nil (start? : Option Nat) (stop : Nat) :
    joinRun start? stop [] = flush start? stop := by
  cases start? <;> rfl

theorem joinRun_token (start? : Option Nat) (stop : Nat) (type : TokenType) (start : Nat)
    (image : List Char) (pieces : List Piece) :
    joinRun start? stop (.token type start image :: pieces)
      = flush start? stop ++ .token type start image :: pieces := by
  cases start? <;> rfl

/-- A character behind the run that is under way makes it longer. -/
theorem joinRun_joinMissed (start? : Option Nat) (offset stop : Nat) (pieces : List Piece) :
    joinRun start? offset (Piece.joinMissed offset stop pieces)
      = joinRun (some (start?.getD offset)) stop pieces := by
  cases start? with
  | none => rfl
  | some start =>
    cases pieces with
    | nil => rfl
    | cons p rest => cases p <;> rfl

/-- The run that is under way when a scan comes to a place is all that it knows more than the plain
scan from there on. -/
theorem scanFrom_eq {types : List (TokenType × Search)} {horizons : List Horizon}
    {before : List Char} {offset : Nat} {start? : Option Nat} {text : List Char}
    (hl : ∀ entry ∈ types, entry.2.Leftmost) (hoffset : offset = byteLength before)
    (hs : SoundHorizons before text offset types horizons) :
    scanFrom types horizons before offset start? text
      = joinRun start? offset (plainScanFrom types before text) := by
  fun_induction scanFrom types horizons before offset start? text with
  | case1 => rw [plainScanFrom, joinRun_nil]
  | case2 horizons before offset start? c rest type length horizons' hmatch image ih =>
    obtain ⟨hfirst, hsound⟩ := matchAt_spec hl hs
    rw [hmatch] at hfirst hsound
    have himage : c :: rest = image ++ rest.drop (length - 1) := by
      rw [List.cons_append, List.take_append_drop]
    rw [himage] at hsound
    have hbehind : offset + byteLength image = byteLength (image.reverse ++ before) := by
      rw [hoffset, byteLength_append, byteLength_reverse, Nat.add_comm]
    rw [plainScanFrom, ← hfirst, ih hbehind hsound.advance, joinRun_token, ← hoffset]
    rfl
  | case3 horizons before offset start? c rest horizons' hmatch ih =>
    obtain ⟨hfirst, hsound⟩ := matchAt_spec hl hs
    rw [hmatch] at hfirst hsound
    have hbehind : offset + c.utf8Size = byteLength (c :: before) := by
      rw [hoffset, byteLength_cons, Nat.add_comm]
    rw [plainScanFrom, ← hfirst, ih hbehind (SoundHorizons.advance (x := [c]) hsound),
      ← joinRun_joinMissed, ← hoffset, hbehind]

end Lexer

/--
**Horizons make no difference.**

If the searches of its types are leftmost, the scan with horizons cuts every text into the tokens
and the unmatched runs that asking every type at every place gives.
-/
theorem Vocabulary.scan_eq_plainScan (v : Vocabulary)
    (h : ∀ entry ∈ v.concrete, entry.2.Leftmost) (text : List Char) :
    v.scan text = v.plainScan text :=
  Lexer.scanFrom_eq h rfl (Lexer.soundHorizons_front text v.concrete)

/-! ## The search of automata -/

namespace Automaton

variable (a : Automaton) (before text : List Char)

/-- A match at the place itself is found first, and otherwise the search goes on behind it. -/
theorem find_eq :
    a.find before text =
      match a.matchLength before.head? text, text with
      | some length, _ => some (0, length)
      | none, [] => none
      | none, c :: rest =>
        (a.find (c :: before) rest).map fun (skip, length) => (skip + 1, length) := by
  rw [find, firstMatch.eq_def]
  cases a.matchLength before.head? text with
  | some length => rfl
  | none => cases text <;> rfl

/-- What starts at a place is the match of the automaton there. -/
theorem lengthAt_find : Search.lengthAt a.find before text = a.matchLength before.head? text := by
  rw [Search.lengthAt, find_eq]
  cases a.matchLength before.head? text with
  | some length => rfl
  | none =>
    cases text with
    | nil => rfl
    | cons c rest =>
      show (match (a.find (c :: before) rest).map fun (skip, length) => (skip + 1, length) with
        | some (0, length) => some length
        | _ => none) = none
      cases a.find (c :: before) rest <;> rfl

/-- Automata are searched for leftmost. -/
theorem leftmost_find : Search.Leftmost a.find := by
  intro before text
  induction text generalizing before with
  | nil =>
    intro skip length
    cases skip with
    | zero => rw [Search.first_zero, Search.lengthAt_eq_some]
    | succ skip =>
      refine ⟨fun h => ?_, fun h => absurd h Search.not_first_nil⟩
      rw [find_eq] at h
      cases hl : a.matchLength before.head? [] <;> simp [hl] at h
  | cons c rest ih =>
    intro skip length
    cases skip with
    | zero => rw [Search.first_zero, Search.lengthAt_eq_some]
    | succ skip =>
      rw [Search.first_cons, ← ih, lengthAt_find, find_eq]
      cases a.matchLength before.head? (c :: rest) <;> simp

end Automaton

namespace Vocabulary

/-- **What definitions lead to is searched for leftmost.** -/
theorem leftmost_ofDefs {defs : List TokenDef} {v : Vocabulary} (h : ofDefs defs = .ok v) :
    ∀ entry ∈ v.concrete, entry.2.Leftmost := by
  obtain ⟨b, hb, rfl⟩ := exists_builder_of_ofDefs h
  have hleft : ∀ t ∈ b.types, ∀ search ∈ t.pattern, Search.Leftmost search := by
    refine VocabularyBuilder.foldlM_define (P := fun b =>
      ∀ t ∈ b.types, ∀ search ∈ t.pattern, Search.Leftmost search) ?_ defs .empty b ?_ hb
    · intro b b' d kind hold hd t ht search hsearch
      obtain ⟨last, -, htypes, hcompiled⟩ := VocabularyBuilder.exists_push_of_defineBy hd
      rw [htypes, Array.mem_push] at ht
      rcases ht with ht | rfl
      · exact hold t ht search hsearch
      · obtain ⟨source, hsource⟩ := hcompiled search hsearch
        obtain ⟨p, -, rfl⟩ := Option.map_eq_some_iff.mp hsource
        exact Automaton.leftmost_find _
    · intro t ht
      cases Array.not_mem_empty t ht
  intro entry hentry
  obtain ⟨kind, -, ht, hpattern⟩ := exists_of_mem_concrete hentry
  exact hleft entry.1 (Array.mem_of_getElem? ht) entry.2 hpattern

/-- The two scans on a text where one type is looked for ahead and waits for its match. -/
theorem scan_eq_plainScan_letters :
    (∀ entry ∈ letters.concrete, entry.2.Leftmost) ∧
      letters.scan "b?ab".toList = letters.plainScan "b?ab".toList :=
  ⟨leftmost_ofDefs ofDefs_letters,
    scan_eq_plainScan letters (leftmost_ofDefs ofDefs_letters) "b?ab".toList⟩

end Vocabulary

end Palette
