import Palette.Proofs.Highlight.Ranges

/-!
# Queries by offset

The nodes of a highlight are found by halving, which is right only because they come in order and
do not overlap. Then halving finds what looking at one node after the other would find, the node
that covers the offset. Since tokens and unmatched runs tile the text, every offset of it lies
either in exactly one node or in exactly one lexical error, and errors of the grammar, wherever
they point, change nothing about that.

Main statements: `Highlight.nodeAt_eq_find?` and `Vocabulary.Highlights.partition_offsets`.
-/

namespace Palette

open Text

/-! ## One span for every offset -/

theorem Span.contains_iff {s : Span} {offset : Nat} :
    s.contains offset = true ↔ s.start ≤ offset ∧ offset < s.stop := by
  simp [contains]

namespace Tiles

variable {first last offset : Nat} {spans : List Span}

theorem stop_le (h : Tiles first spans last) : ∀ s ∈ spans, s.stop ≤ last := by
  induction h with
  | nil => intro s hs; cases hs
  | @cons start stop last spans hlt hrest ih =>
    intro s hs
    rcases List.mem_cons.mp hs with rfl | hs
    · -- the last of the spans behind ends where all of them end
      cases hrest with
      | nil => exact Nat.le_refl _
      | cons hlt' hrest' =>
        have := ih _ List.mem_cons_self
        exact Nat.le_trans (Nat.le_of_lt hlt') this
    · exact ih s hs

/-- Every offset between the ends of a tiling lies in exactly one of its spans. -/
theorem exists_filter_contains (h : Tiles first spans last) (hlo : first ≤ offset)
    (hhi : offset < last) : ∃ s, spans.filter (·.contains offset) = [s] := by
  induction h with
  | nil => omega
  | @cons start stop last spans hlt hrest ih =>
    by_cases hin : offset < stop
    · have hhead : (Span.mk start stop).contains offset = true := Span.contains_iff.mpr ⟨hlo, hin⟩
      have htail : spans.filter (·.contains offset) = [] := by
        refine List.filter_eq_nil_iff.mpr fun s hs hc => ?_
        have := hrest.start_ge s hs
        have := Span.contains_iff.mp hc
        omega
      exact ⟨⟨start, stop⟩, by rw [List.filter_cons, if_pos hhead, htail]⟩
    · have hhead : ¬ (Span.mk start stop).contains offset = true :=
        fun hc => hin (Span.contains_iff.mp hc).2
      rw [List.filter_cons, if_neg hhead]
      exact ih (Nat.le_of_not_lt hin) hhi

/-- No span of a tiling goes beyond its end. -/
theorem contains_eq_false (h : Tiles first spans last) (hhi : last ≤ offset) :
    ∀ s ∈ spans, s.contains offset = false := by
  intro s hs
  have := h.stop_le s hs
  refine Bool.eq_false_iff.mpr fun hc => ?_
  have := (Span.contains_iff.mp hc).2
  omega

end Tiles

/-! ## Halving finds the node that covers an offset -/

/-- Nodes that are not empty and follow each other without overlap. -/
structure HighlightNode.Ordered (nodes : List HighlightNode) : Prop where
  nonempty : ∀ n ∈ nodes, n.start < n.stop
  apart : nodes.Pairwise fun m n => m.stop ≤ n.start

namespace HighlightNode.Ordered

variable {nodes front back : List HighlightNode} {offset : Nat}

theorem of_append (h : Ordered (front ++ back)) : Ordered back :=
  ⟨fun n hn => h.nonempty n (List.mem_append_right _ hn), (List.pairwise_append.mp h.apart).2.1⟩

/-- The nodes that end before an offset come before those that do not. -/
theorem exists_split (h : Ordered nodes) (offset : Nat) :
    ∃ front back, nodes = front ++ back ∧ (∀ n ∈ front, n.stop ≤ offset) ∧
      ∀ n ∈ back, offset < n.stop := by
  induction nodes with
  | nil => exact ⟨[], [], rfl, nofun, nofun⟩
  | cons m rest ih =>
    by_cases hm : m.stop ≤ offset
    · have hrest : Ordered ([m] ++ rest) := h
      obtain ⟨front, back, rfl, hfront, hback⟩ := ih hrest.of_append
      exact ⟨m :: front, back, rfl, List.forall_mem_cons.mpr ⟨hm, hfront⟩, hback⟩
    · refine ⟨[], m :: rest, rfl, nofun, List.forall_mem_cons.mpr ⟨by omega, fun n hn => ?_⟩⟩
      have := (List.pairwise_cons.mp h.apart).1 n hn
      have := h.nonempty n (List.mem_cons_of_mem _ hn)
      omega

/-- Among nodes that end behind the offset, only the first can cover it. -/
theorem find?_eq_filter_head? (h : Ordered nodes) (hstop : ∀ n ∈ nodes, offset < n.stop) :
    nodes.find? (·.span.contains offset) = nodes.head?.filter (·.span.contains offset) := by
  cases nodes with
  | nil => rfl
  | cons m rest =>
    rw [List.find?_cons, List.head?_cons, Option.filter_some]
    cases hm : m.span.contains offset with
    | true => rfl
    | false =>
      refine List.find?_eq_none.mpr fun n hn hc => ?_
      have := (List.pairwise_cons.mp h.apart).1 n hn
      have := hstop m List.mem_cons_self
      have : n.start ≤ offset := (Span.contains_iff.mp hc).1
      omega

end HighlightNode.Ordered

/-- **Halving finds the node that covers the offset**, if the nodes are in order. -/
theorem Highlight.nodeAt_eq_find? {h : Highlight} (hnodes : HighlightNode.Ordered h.nodes)
    (offset : Nat) : h.nodeAt offset = h.nodes.find? (·.span.contains offset) := by
  obtain ⟨front, back, hsplit, hfront, hback⟩ := hnodes.exists_split offset
  have hpoint : partitionPoint (fun n => n.stop ≤ offset) (front ++ back) = front.length :=
    partitionPoint_eq (fun n hn => decide_eq_true (hfront n hn))
      fun n hn => decide_eq_false (Nat.not_le_of_lt (hback n hn))
  have hskip : front.find? (·.span.contains offset) = none :=
    List.find?_eq_none.mpr fun n hn hc =>
      Nat.not_lt_of_le (hfront n hn) (Span.contains_iff.mp hc).2
  rw [hsplit] at hnodes
  calc h.nodeAt offset
    _ = (front ++ back)[front.length]?.filter (·.span.contains offset) := by
      rw [nodeAt, hsplit, hpoint]
    _ = back.head?.filter (·.span.contains offset) := by
      rw [List.getElem?_append_right (Nat.le_refl _), Nat.sub_self, List.head?_eq_getElem?]
    _ = back.find? (·.span.contains offset) := (hnodes.of_append.find?_eq_filter_head? hback).symm
    _ = h.nodes.find? (·.span.contains offset) := by
      rw [hsplit, List.find?_append, hskip, Option.none_or]

/-! ## The highlights of a text -/

/-- Tokens come in the order of the pieces, so their spans are a part of the spans of the pieces. -/
theorem Piece.sublist_spans (v : Vocabulary) {pieces : List Piece}
    (hsome : ∀ p ∈ pieces, p.span.start < p.span.stop) :
    ((pieces.filterMap (·.tagged? v)).map (·.token.span)).Sublist (pieces.map span) := by
  induction pieces with
  | nil => exact List.Sublist.refl _
  | cons p rest ih =>
    obtain ⟨hp, hrest⟩ := List.forall_mem_cons.mp hsome
    cases p with
    | token type start image =>
      have hspan := Token.span_of type start (Nat.lt_add_right_iff_pos.mp hp)
      show ((Token.of type start image).span :: _).Sublist _
      rw [hspan]
      exact (ih hrest).cons_cons _
    | unmatched start stop => exact (ih hrest).cons _

namespace Vocabulary

variable {v : Vocabulary} {text : String}

/-- The spans of tokens and errors, in the order in which they tile the text. -/
theorem exists_tiles (v : Vocabulary) (text : String) :
    ∃ spans, Tiles 0 spans (byteLength text.toList) ∧
      ((v.highlightData text).tokens.map (·.token.span)
        ++ (v.highlightData text).errors.map (·.span)).Perm spans ∧
      ((v.highlightData text).tokens.map (·.token.span)).Sublist spans := by
  have hlaid := v.laid_scan text.toList
  exact ⟨_, hlaid.tiles, Piece.spans_perm v text.toList hlaid.start_lt_stop,
    Piece.sublist_spans v hlaid.start_lt_stop⟩

/-- The highlights of a text: that of the lexer alone, and that of every parser. -/
inductive Highlights (v : Vocabulary) (text : String) : Highlight → Prop where
  | lexer : Highlights v text (v.highlight text)
  | parser {τ : Type} (p : Parser τ) (hp : p.vocabulary = v) (steps : Nat) (h : Highlight)
      (hh : p.highlightWithin steps text = some h) : Highlights v text h

/-- A highlight has a node for every token and a lexical error for every unmatched run, and no
other lexical error. -/
theorem Highlights.exists_errors {h : Highlight} (hh : v.Highlights text h) :
    h.nodes = (v.highlightData text).tokens.map (·.node) ∧
      ∃ others, h.errors = (v.highlightData text).errors.map (·.toHighlightError text) ++ others ∧
        ∀ e ∈ others, e.kind.isLexical = false := by
  cases hh with
  | lexer => exact ⟨rfl, [], (List.append_nil _).symm, nofun⟩
  | parser p hp steps _ hh =>
    subst hp
    unfold Parser.highlightWithin at hh
    dsimp only at hh
    split at hh
    · next s _ =>
      cases hh
      refine ⟨rfl, _, rfl, fun e he => ?_⟩
      obtain ⟨r, -, rfl⟩ := List.mem_map.mp he
      show r.kind.highlightKind.isLexical = false
      cases r.kind <;> rfl
    · cases hh

end Vocabulary

/-! ## Nodes and lexical errors share out the text -/

namespace Highlight

/-- The lexical errors of a highlight. -/
def lexicalErrors (h : Highlight) : List HighlightError := h.errors.filter (·.kind.isLexical)

/-- The lexical errors that a query at an offset finds there and that contain the offset. -/
def lexicalErrorsAt (h : Highlight) (offset : Nat) : List HighlightError :=
  (h.errorsAt offset).filter fun e => e.kind.isLexical && e.span.contains offset

/-- A query at an offset misses no lexical error that contains it. -/
theorem lexicalErrorsAt_eq (h : Highlight) (offset : Nat) :
    h.lexicalErrorsAt offset = h.lexicalErrors.filter (·.span.contains offset) := by
  rw [lexicalErrorsAt, errorsAt, lexicalErrors, List.filter_filter, List.filter_filter]
  refine List.filter_congr fun e _ => ?_
  cases e.span.contains offset <;> cases e.kind.isLexical <;> rfl

/-- Nodes in order, whose spans together with those of the lexical errors tile a text of `length`
bytes. -/
structure Covers (h : Highlight) (length : Nat) : Prop where
  ordered : HighlightNode.Ordered h.nodes
  tiles : ∃ spans, Tiles 0 spans length ∧
    (h.nodes.map (·.span) ++ h.lexicalErrors.map (·.span)).Perm spans

namespace Covers

variable {h : Highlight} {length offset : Nat}

/-- An offset of the text lies in one node or in one lexical error. -/
theorem exists_of_lt (hc : h.Covers length) (hlt : offset < length) :
    (∃ n, h.nodes.filter (·.span.contains offset) = [n] ∧
        h.lexicalErrors.filter (·.span.contains offset) = []) ∨
      h.nodes.filter (·.span.contains offset) = [] ∧
        ∃ e, h.lexicalErrors.filter (·.span.contains offset) = [e] := by
  obtain ⟨spans, htiles, hperm⟩ := hc.tiles
  obtain ⟨s, hs⟩ := htiles.exists_filter_contains (Nat.zero_le offset) hlt
  have hone := hperm.filter (·.contains offset)
  rw [hs, List.perm_singleton, List.filter_append, List.filter_map, List.filter_map] at hone
  rcases List.append_eq_singleton_iff.mp hone with ⟨hnodes, herrors⟩ | ⟨hnodes, herrors⟩
  · obtain ⟨e, he, -⟩ := List.map_eq_singleton_iff.mp herrors
    exact .inr ⟨List.map_eq_nil_iff.mp hnodes, e, he⟩
  · obtain ⟨n, hn, -⟩ := List.map_eq_singleton_iff.mp hnodes
    exact .inl ⟨n, hn, List.map_eq_nil_iff.mp herrors⟩

/-- No node reaches behind the text. -/
theorem nodeAt_eq_none (hc : h.Covers length) (hle : length ≤ offset) :
    h.nodeAt offset = none := by
  obtain ⟨spans, htiles, hperm⟩ := hc.tiles
  rw [nodeAt_eq_find? hc.ordered]
  refine List.find?_eq_none.mpr fun n hn => ?_
  have hmem : n.span ∈ spans :=
    hperm.mem_iff.mp (List.mem_append_left _ (List.mem_map_of_mem hn))
  rw [htiles.contains_eq_false hle n.span hmem]
  exact Bool.false_ne_true

end Covers

end Highlight

namespace Vocabulary

variable {v : Vocabulary} {text : String} {h : Highlight}

theorem Highlights.covers (hh : v.Highlights text h) : h.Covers (byteLength text.toList) := by
  obtain ⟨spans, htiles, hperm, hsub⟩ := v.exists_tiles text
  obtain ⟨hnodes, others, herrors, hothers⟩ := hh.exists_errors
  have hnodeSpans : h.nodes.map (·.span) = (v.highlightData text).tokens.map (·.token.span) := by
    rw [hnodes, List.map_map]
    rfl
  have hlexical : h.lexicalErrors = (v.highlightData text).errors.map (·.toHighlightError text) := by
    have hothers : others.filter (·.kind.isLexical) = [] :=
      List.filter_eq_nil_iff.mpr fun e he => by simp [hothers e he]
    rw [Highlight.lexicalErrors, herrors, List.filter_append, hothers, List.append_nil]
    refine List.filter_eq_self.mpr fun e he => ?_
    obtain ⟨l, -, rfl⟩ := List.mem_map.mp he
    rfl
  have herrorSpans : h.lexicalErrors.map (·.span) = (v.highlightData text).errors.map (·.span) := by
    rw [hlexical, List.map_map]
    refine List.map_congr_left fun l hl => ?_
    obtain ⟨piece, hpiece⟩ := v.exists_slice?_of_mem_errors text hl
    exact congrArg SyntaxRange.span (SyntaxRange.capture_of_slice? hpiece)
  refine ⟨⟨fun n hn => ?_, ?_⟩, spans, htiles, ?_⟩
  · have hmem : n.span ∈ spans := hsub.mem (hnodeSpans ▸ List.mem_map_of_mem hn)
    exact htiles.start_lt_stop n.span hmem
  · exact List.pairwise_map.mp (hnodeSpans ▸ htiles.pairwise.sublist hsub)
  · rw [hnodeSpans, herrorSpans]
    exact hperm

/--
**Offset queries partition the text.**

At every offset of the text, the query for a node answers the only node that contains it, and no
lexical error does; or else it answers nothing, and of the errors found at the offset exactly one is
a lexical error that contains it. Behind the text there is no node.
-/
theorem Highlights.partition_offsets (hh : v.Highlights text h) :
    (∀ offset < byteLength text.toList,
      (∃ n, h.nodeAt offset = some n ∧ h.nodes.filter (·.span.contains offset) = [n] ∧
          ∀ e ∈ h.errors, e.kind.isLexical = true → e.span.contains offset = false) ∨
        h.nodeAt offset = none ∧ ∃ e, h.lexicalErrorsAt offset = [e]) ∧
      ∀ offset ≥ byteLength text.toList, h.nodeAt offset = none := by
  have hcovers := hh.covers
  refine ⟨fun offset hlt => ?_, fun offset hle => hcovers.nodeAt_eq_none hle⟩
  rw [Highlight.nodeAt_eq_find? hcovers.ordered, ← List.head?_filter, h.lexicalErrorsAt_eq]
  rcases hcovers.exists_of_lt hlt with ⟨n, hn, herrors⟩ | ⟨hnodes, e, he⟩
  · refine .inl ⟨n, by rw [hn]; rfl, hn, fun e he hkind => ?_⟩
    have hmem : e ∈ h.lexicalErrors := List.mem_filter.mpr ⟨he, hkind⟩
    exact Bool.eq_false_iff.mpr (List.filter_eq_nil_iff.mp herrors e hmem)
  · exact .inr ⟨by rw [hnodes]; rfl, e, he⟩

set_option maxRecDepth 4000 in
/-- Within the letter that nothing matches, a parser of pairs finds no node but the lexical error. -/
theorem Highlights.partition_offsets_pairs :
    ∃ h, GrammarDef.pairsParser.highlightWithin 20 "aéa" = some h ∧
      letters.Highlights "aéa" h ∧ (h.nodeAt 0).map (·.text) = some "a" ∧
      h.nodeAt 2 = none ∧ (∃ e, h.lexicalErrorsAt 2 = [e]) ∧
      (h.nodeAt 3).map (·.text) = some "a" ∧ h.nodeAt 4 = none := by
  have hlength : byteLength "aéa".toList = 4 := by decide
  have hrun : (GrammarDef.pairsParser.highlightWithin 20 "aéa").map (fun h =>
      ((h.nodeAt 0).map (·.text), h.nodeAt 2, (h.nodeAt 3).map (·.text)))
      = some (some "a", none, some "a") := by cbv
  obtain ⟨h, hh, hnodes⟩ := Option.map_eq_some_iff.mp hrun
  obtain ⟨hfirst, hnone, hlast⟩ : _ ∧ _ ∧ _ := by simpa only [Prod.mk.injEq] using hnodes
  have hhigh : letters.Highlights "aéa" h := .parser GrammarDef.pairsParser rfl 20 h hh
  obtain ⟨hwithin, hbehind⟩ := Highlights.partition_offsets hhigh
  refine ⟨h, hh, hhigh, hfirst, hnone, ?_, hlast, hbehind 4 (by rw [hlength])⟩
  rcases hwithin 2 (by rw [hlength]; decide) with ⟨n, hn, -⟩ | ⟨-, herror⟩
  · rw [hnone] at hn
    cases hn
  · exact herror

end Vocabulary

end Palette
