import Mathlib.Data.List.Chain
import Palette.Lexer.Basic

/-!
# A scan tiles its text

Whatever the searches of its types answer, the pieces of a scan are laid one behind the other in the
text (`Piece.Laid`): every offset that the scan has come to is the number of bytes in front of it,
no piece is empty, and two unmatched runs never stand side by side. So each piece is found in the
text where its span says (`Piece.Laid.exists_place`), and this is what the tokens and errors of
highlighting are made of.

Main statement: sorted by where they start, the spans of tokens and errors follow each other from
the front of the text to its end (`highlightData_tiles`).
-/

namespace Palette

open Text

/-- Non-empty spans that follow each other without gap or overlap from one offset to another. -/
inductive Tiles : Nat → List Span → Nat → Prop where
  | nil (offset : Nat) : Tiles offset [] offset
  | cons {start stop last : Nat} {spans : List Span} (h : start < stop)
      (rest : Tiles stop spans last) : Tiles start (⟨start, stop⟩ :: spans) last

namespace Tiles

variable {first last : Nat} {spans : List Span}

theorem start_ge (h : Tiles first spans last) : ∀ s ∈ spans, first ≤ s.start := by
  induction h with
  | nil => intro s hs; cases hs
  | cons hlt _ ih =>
    intro s hs
    rcases List.mem_cons.mp hs with rfl | hs
    · exact Nat.le_refl _
    · exact Nat.le_trans (Nat.le_of_lt hlt) (ih s hs)

/-- Every span ends before the next ones start. -/
theorem pairwise (h : Tiles first spans last) : spans.Pairwise fun s t => s.stop ≤ t.start := by
  induction h with
  | nil => exact List.Pairwise.nil
  | cons _ hrest ih => exact List.pairwise_cons.mpr ⟨hrest.start_ge, ih⟩

theorem start_lt_stop (h : Tiles first spans last) : ∀ s ∈ spans, s.start < s.stop := by
  induction h with
  | nil => intro s hs; cases hs
  | cons hlt _ ih =>
    intro s hs
    rcases List.mem_cons.mp hs with rfl | hs
    · exact hlt
    · exact ih s hs

/-- Starts tell the spans of a tiling apart. -/
theorem eq_of_start_eq (h : Tiles first spans last) {s t : Span} (hs : s ∈ spans) (ht : t ∈ spans)
    (he : s.start = t.start) : s = t := by
  induction h with
  | nil => cases hs
  | cons hlt hrest ih =>
    rcases List.mem_cons.mp hs with rfl | hs <;> rcases List.mem_cons.mp ht with rfl | ht
    · rfl
    · have := hrest.start_ge t ht
      simp only at he
      omega
    · have := hrest.start_ge s hs
      simp only at he
      omega
    · exact ih hs ht

/-- Sorting spans that tile, in whatever order they come, puts them into their order. -/
theorem mergeSort_eq (h : Tiles first spans last) {others : List Span} (hp : others.Perm spans) :
    others.mergeSort (fun s t => decide (s.start ≤ t.start)) = spans := by
  have hsorted : (others.mergeSort fun s t => decide (s.start ≤ t.start)).Pairwise
      fun s t => s.start ≤ t.start := by
    have htrans : ∀ s t u : Span, decide (s.start ≤ t.start) = true →
        decide (t.start ≤ u.start) = true → decide (s.start ≤ u.start) = true := by
      simp only [decide_eq_true_eq]
      omega
    have htotal : ∀ s t : Span,
        (decide (s.start ≤ t.start) || decide (t.start ≤ s.start)) = true := by
      simp only [Bool.or_eq_true, decide_eq_true_eq]
      omega
    simpa only [decide_eq_true_eq] using List.pairwise_mergeSort htrans htotal others
  have hspans : spans.Pairwise fun s t => s.start ≤ t.start := by
    refine h.pairwise.imp_of_mem fun {s t} hs _ hst => ?_
    have := h.start_lt_stop s hs
    omega
  have hperm := (List.mergeSort_perm others fun s t => decide (s.start ≤ t.start)).trans hp
  refine hperm.eq_of_pairwise (fun s t hs ht hst hts => ?_) hsorted hspans
  exact h.eq_of_start_eq (hperm.mem_iff.mp hs) ht (Nat.le_antisymm hst hts)

end Tiles

/-! ## The pieces of a scan -/

namespace Piece

/-- Whether the piece is a run of characters that no type matches. -/
def isUnmatched : Piece → Bool
  | token _ _ _ => false
  | unmatched _ _ => true

/-- The bytes of the piece. -/
def span : Piece → Span
  | token _ start image => ⟨start, start + byteLength image⟩
  | unmatched start stop => ⟨start, stop⟩

/-- Whether the piece is made of some characters that stand behind others. -/
def StandsAt (front chars : List Char) : Piece → Prop
  | token _ start image => start = byteLength front ∧ image = chars
  | unmatched start stop => start = byteLength front ∧ stop = byteLength front + byteLength chars

/-- Pieces one behind the other, which make up a text that stands behind some characters. Behind an
unmatched run there is no other. -/
inductive Laid : (front text : List Char) → List Piece → Prop where
  | nil (front : List Char) : Laid front [] []
  | cons {front text chars rest : List Char} {p : Piece} {pieces : List Piece}
      (hplace : p.StandsAt front chars) (hsome : chars ≠ [])
      (hnext : p.isUnmatched = true → ∀ q ∈ pieces.head?, q.isUnmatched = false)
      (htext : text = chars ++ rest) (hrest : Laid (front ++ chars) rest pieces) :
      Laid front text (p :: pieces)

theorem StandsAt.span_eq {p : Piece} {front chars : List Char} (h : p.StandsAt front chars) :
    p.span = ⟨byteLength front, byteLength front + byteLength chars⟩ := by
  cases p with
  | token type start image =>
    obtain ⟨rfl, rfl⟩ := h
    rfl
  | unmatched start stop =>
    obtain ⟨rfl, rfl⟩ := h
    rfl

end Piece

namespace Lexer

/-- Where a run of characters begins that stands behind others, if it has any. -/
def runStart? (front run : List Char) : Option Nat :=
  if run.isEmpty then none else some (byteLength front)

/-- A run that is over is laid in front of what begins with a token. -/
theorem laid_flush {front run text : List Char} {pieces : List Piece}
    (hnext : ∀ q ∈ pieces.head?, q.isUnmatched = false)
    (h : Piece.Laid (front ++ run) text pieces) :
    Piece.Laid front (run ++ text)
      (flush (runStart? front run) (byteLength (front ++ run)) ++ pieces) := by
  cases run with
  | nil => simpa [runStart?, flush] using h
  | cons c run =>
    refine .cons ?_ (List.cons_ne_nil c run) (fun _ => hnext) rfl h
    exact ⟨rfl, byteLength_append front (c :: run)⟩

/-- **The pieces of a scan are laid in its text.** The run that is under way stands in front of what
is still to be scanned. -/
theorem laid_scanFrom (types : List (TokenType × Search)) {horizons : List Horizon}
    {before : List Char} {offset : Nat} {start? : Option Nat} {front run text : List Char}
    (hoffset : offset = byteLength (front ++ run)) (hstart : start? = runStart? front run) :
    Piece.Laid front (run ++ text) (scanFrom types horizons before offset start? text) := by
  fun_induction scanFrom types horizons before offset start? text generalizing front run
  case case1 =>
    rw [hstart, hoffset, ← List.append_nil (flush _ _)]
    exact laid_flush nofun (.nil _)
  case case2 horizons before offset start? c rest type length horizons' hmatch image ih =>
    have hbehind : offset + byteLength image = byteLength (front ++ run ++ image ++ []) := by
      rw [hoffset, List.append_nil, ← byteLength_append]
    have htext : c :: rest = image ++ rest.drop (length - 1) := by
      rw [List.cons_append, List.take_append_drop]
    have hrest := ih hbehind rfl
    have htoken := Piece.Laid.cons (p := .token type offset image) ⟨hoffset, rfl⟩
      (List.cons_ne_nil c _) nofun htext hrest
    rw [hstart, hoffset]
    rw [hoffset] at htoken
    refine laid_flush (fun q hq => ?_) htoken
    obtain rfl := Option.some.inj hq
    rfl
  case case3 horizons before offset start? c rest horizons' hmatch ih =>
    rw [show run ++ c :: rest = (run ++ [c]) ++ rest by simp]
    refine ih ?_ ?_
    · rw [hoffset, ← List.append_assoc, byteLength_append (front ++ run)]
      rfl
    · rw [hstart, hoffset]
      cases run <;> simp [runStart?]

end Lexer

theorem Vocabulary.laid_scan (v : Vocabulary) (text : List Char) :
    Piece.Laid [] text (v.scan text) := by
  have hstart : none = Lexer.runStart? [] [] := rfl
  exact Lexer.laid_scanFrom v.concrete rfl hstart

/-! ## Pieces laid in their text -/

/-- A piece between two texts is what its span covers. -/
theorem Span.slice?_piece {text : String} {a b c : List Char} (h : text.toList = a ++ (b ++ c)) :
    (Span.mk (byteLength a) (byteLength a + byteLength b)).slice? text
      = some (String.ofList b) := by
  rw [slice?, h, ← List.append_assoc, slice_append, Option.map_some]

namespace Piece.Laid

variable {front text : List Char} {pieces : List Piece}

/-- **Every piece stands in the text where its offsets say.** -/
theorem exists_place (h : Laid front text pieces) {p : Piece} (hp : p ∈ pieces) :
    ∃ before chars behind, text = before ++ (chars ++ behind) ∧ chars ≠ [] ∧
      p.StandsAt (front ++ before) chars := by
  induction h with
  | nil => cases hp
  | @cons front text chars rest q pieces hplace hsome hnext htext hrest ih =>
    rcases List.mem_cons.mp hp with rfl | hp
    · exact ⟨[], chars, rest, htext, hsome, by rwa [List.append_nil]⟩
    · obtain ⟨before, chars', behind, rfl, hsome', hplace'⟩ := ih hp
      refine ⟨chars ++ before, chars', behind, by rw [htext, List.append_assoc], hsome', ?_⟩
      rwa [← List.append_assoc]

theorem tiles (h : Laid front text pieces) :
    Tiles (byteLength front) (pieces.map span) (byteLength (front ++ text)) := by
  induction h with
  | nil front =>
    rw [List.append_nil]
    exact .nil _
  | @cons front text chars rest p pieces hplace hsome hnext htext hrest ih =>
    rw [htext, ← List.append_assoc, List.map_cons, hplace.span_eq]
    have hpos : 0 < byteLength chars :=
      Nat.pos_of_ne_zero fun hzero => hsome (byteLength_eq_zero.mp hzero)
    refine .cons (Nat.lt_add_of_pos_right hpos) ?_
    rwa [byteLength_append front chars] at ih

/-- The span of every piece cuts through no character. -/
theorem isSome_slice?_span {source : String} (h : Laid [] source.toList pieces) {p : Piece}
    (hp : p ∈ pieces) : (p.span.slice? source).isSome = true := by
  obtain ⟨before, chars, behind, htext, -, hplace⟩ := h.exists_place hp
  rw [hplace.span_eq, List.nil_append, Span.slice?_piece htext]
  rfl

end Piece.Laid

/-! ## Tokens and errors of the pieces -/

theorem Token.span_of (type : TokenType) (offset : Nat) {text : List Char}
    (h : 0 < byteLength text) :
    (Token.of type offset text).span = ⟨offset, offset + byteLength text⟩ := by
  simp only [Token.of, Token.span, Span.ofInclusive, Span.mk.injEq, true_and]
  omega

theorem LexError.span_unmatched (text : List Char) {start stop : Nat} (h : start ≤ stop) :
    (LexError.unmatched text start stop).span = ⟨start, stop⟩ :=
  congrArg (Span.mk start) (Nat.add_sub_cancel' h)

namespace Piece

variable {v : Vocabulary} {text : List Char} {p : Piece}

theorem span_of_tagged? {t : TaggedToken} (h : p.tagged? v = some t)
    (hsome : p.span.start < p.span.stop) : t.token.span = p.span := by
  cases p with
  | token type start image =>
    cases h
    exact Token.span_of type start (Nat.lt_add_right_iff_pos.mp hsome)
  | unmatched start stop => cases h

theorem span_of_error? {e : LexError} (h : p.error? text = some e)
    (hsome : p.span.start < p.span.stop) : e.span = p.span := by
  cases p with
  | token type start image => cases h
  | unmatched start stop =>
    cases h
    exact LexError.span_unmatched text (Nat.le_of_lt hsome)

theorem start_of_parsed? {t : Token} (h : p.parsed? = some t) : t.start = p.span.start := by
  cases p with
  | token type start image =>
    rw [parsed?] at h
    split at h
    · cases h
    · cases h
      rfl
  | unmatched start stop => cases h

/-- Tokens and errors share out the spans of the pieces. -/
theorem spans_perm (v : Vocabulary) (text : List Char) {pieces : List Piece}
    (hsome : ∀ p ∈ pieces, p.span.start < p.span.stop) :
    ((pieces.filterMap (·.tagged? v)).map (·.token.span)
      ++ (pieces.filterMap (·.error? text)).map (·.span)).Perm (pieces.map span) := by
  induction pieces with
  | nil => exact .nil
  | cons p rest ih =>
    obtain ⟨hp, hrest⟩ := List.forall_mem_cons.mp hsome
    cases p with
    | token type start image =>
      have hspan := Token.span_of type start (Nat.lt_add_right_iff_pos.mp hp)
      show ((Token.of type start image).span :: _).Perm _
      rw [hspan]
      exact (ih hrest).cons _
    | unmatched start stop =>
      have hspan := LexError.span_unmatched text (Nat.le_of_lt hp : start ≤ stop)
      show (_ ++ (LexError.unmatched text start stop).span :: _).Perm _
      rw [hspan]
      exact List.perm_middle.trans ((ih hrest).cons _)

namespace Laid

variable {front rest : List Char} {pieces : List Piece}

theorem start_lt_stop (h : Laid front rest pieces) :
    ∀ p ∈ pieces, p.span.start < p.span.stop :=
  fun _ hp => h.tiles.start_lt_stop _ (List.mem_map_of_mem hp)

/-- Every token has the text that its span covers. -/
theorem slice?_tagged {source : String} (h : Laid [] source.toList pieces) :
    ∀ t ∈ pieces.filterMap (·.tagged? v), t.token.span.slice? source = some t.token.image := by
  intro t ht
  obtain ⟨p, hp, htag⟩ := List.mem_filterMap.mp ht
  rw [span_of_tagged? htag (h.start_lt_stop p hp)]
  obtain ⟨before, chars, behind, htext, -, hplace⟩ := h.exists_place hp
  rw [hplace.span_eq, List.nil_append, Span.slice?_piece htext]
  cases p with
  | token type start image =>
    cases htag
    rw [hplace.2]
    rfl
  | unmatched start stop => cases htag

/-- Every error starts behind the end of those before it: what follows an unmatched run is a token,
which keeps the next one away. -/
theorem pairwise_errors (h : Laid front rest pieces) :
    (pieces.filterMap (·.error? text)).Pairwise (fun e f => e.span.stop < f.span.start) ∧
      (∀ e ∈ pieces.filterMap (·.error? text), byteLength front ≤ e.span.start) ∧
      ((∀ p ∈ pieces.head?, p.isUnmatched = false) →
        ∀ e ∈ pieces.filterMap (·.error? text), byteLength front < e.span.start) := by
  induction h with
  | nil => exact ⟨.nil, nofun, nofun⟩
  | @cons front rest chars behind p pieces hplace hsome hnext htext hrest ih =>
    obtain ⟨hpair, hge, hgt⟩ := ih
    have hpos : 0 < byteLength chars :=
      Nat.pos_of_ne_zero fun hzero => hsome (byteLength_eq_zero.mp hzero)
    rw [byteLength_append] at hge hgt
    cases p with
    | token type start image =>
      have hlt : ∀ e ∈ (Piece.token type start image :: pieces).filterMap (·.error? text),
          byteLength front < e.span.start := by
        intro e he
        have := hge e he
        omega
      exact ⟨hpair, fun e he => Nat.le_of_lt (hlt e he), fun _ => hlt⟩
    | unmatched start stop =>
      obtain ⟨rfl, rfl⟩ := hplace
      have hspan := LexError.span_unmatched text
        (Nat.le_add_right (byteLength front) (byteLength chars))
      refine ⟨List.pairwise_cons.mpr ⟨fun f hf => ?_, hpair⟩, fun e he => ?_, fun hhead => ?_⟩
      · rw [hspan]
        exact hgt (hnext rfl) f hf
      · rcases List.mem_cons.mp he with rfl | he
        · exact Nat.le_refl _
        · have := hge e he
          omega
      · cases hhead _ rfl

end Laid

end Piece

/-- No two tokens of a text are the same. -/
theorem Vocabulary.nodup_tokenize (v : Vocabulary) (text : String) :
    (v.tokenize text).tokens.Nodup := by
  have hlaid := v.laid_scan text.toList
  -- every piece starts behind the one before it
  have hpair : (v.scan text.toList).Pairwise fun p q => p.span.start < q.span.start := by
    refine (List.pairwise_map.mp hlaid.tiles.pairwise).imp_of_mem fun {p q} hp _ hpq => ?_
    exact Nat.lt_of_lt_of_le (hlaid.start_lt_stop p hp) hpq
  refine List.pairwise_filterMap.mpr (hpair.imp fun {p q} hpq t ht u hu htu => ?_)
  have := Piece.start_of_parsed? ht
  have := Piece.start_of_parsed? hu
  subst htu
  omega

/--
**The spans of tokens and errors tile the text.**

Sorted by where they start, they are non-empty, cut through no character, and follow each other
without gap or overlap from the front of the text to its end. The image of a token is the text of
its span, and between two errors there is something else. Nothing is asked of the searches of the
types, which answer in characters of the text from the place where they start.
-/
theorem Vocabulary.highlightData_tiles (v : Vocabulary) (text : String) :
    let data := v.highlightData text
    let spans := (data.tokens.map (·.token.span) ++ data.errors.map (·.span)).mergeSort
      fun s t => decide (s.start ≤ t.start)
    Tiles 0 spans (byteLength text.toList) ∧
      (∀ s ∈ spans, s.start < s.stop ∧ (s.slice? text).isSome = true) ∧
      (∀ t ∈ data.tokens, t.token.span.slice? text = some t.token.image) ∧
      data.errors.Pairwise fun e f => e.span.stop < f.span.start := by
  intro data spans
  have hlaid := v.laid_scan text.toList
  have htiles : Tiles 0 ((v.scan text.toList).map Piece.span) (byteLength text.toList) :=
    hlaid.tiles
  have hsorted : spans = (v.scan text.toList).map Piece.span :=
    htiles.mergeSort_eq (Piece.spans_perm v text.toList hlaid.start_lt_stop)
  refine ⟨hsorted ▸ htiles, fun s hs => ?_, hlaid.slice?_tagged, hlaid.pairwise_errors.1⟩
  rw [hsorted] at hs
  obtain ⟨p, hp, rfl⟩ := List.mem_map.mp hs
  exact ⟨hlaid.start_lt_stop p hp, hlaid.isSome_slice?_span hp⟩

end Palette
