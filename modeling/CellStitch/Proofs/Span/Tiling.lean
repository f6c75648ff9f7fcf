import CellStitch.Proofs.Span.Layout
import Mathlib.Data.List.Chain
/-!
# A layout tiles two texts

The spans of a layout stand one behind the other in the document, and those of them that are text of
the cell stand one behind the other in the cell (`Span.layOut_tiling`). Placing pieces gives both,
whatever the pieces are (`Span.tiles_place`, `Span.tiles_filter_place`).

That no annotation comes first and no two annotations touch is a matter of the pieces, which take
turns (`Piece.alternates_ofText`); placed, they are spans that take turns (`Span.isChain_place`).
-/

namespace CellStitch

/-! ### Spans in turn -/

namespace Span

open Piece (shown written Alternates)

/-- Spans that stand one behind the other from `lo` to `hi`, by the offsets at which they start and
stop: in the document, or in the cell. -/
inductive Tiles (start stop : Span → Int) : Int → List Span → Int → Prop where
  | nil (o : Int) : Tiles start stop o [] o
  | cons {lo hi : Int} {s : Span} {spans : List Span} (hstart : start s = lo)
    (h : Tiles start stop (stop s) spans hi) : Tiles start stop lo (s :: spans) hi

/-- How spans take turns. An annotation takes no place in the cell; it stands where the text of the
cell in front of it stops. -/
inductive Turn (s s' : Span) : Prop where
  | verbatim (hs : s.verbatim = false) (hs' : s'.verbatim = true)
  | injected (hs : s.verbatim = true) (hs' : s'.verbatim = false) (htext : s'.text = skipMark)
    (hstart : s'.realStart = s.realStop) (hstop : s'.realStop = s.realStop)

/-- The span of a header. There is none if the header is empty. -/
def headerSpans (uri : String) (header : Text) (offset real : Int) : List Span :=
  if header.isEmpty then []
  else [⟨uri, header, offset, offset + header.length, real, real, false⟩]

/-- Spans of a text that is placed at `offset` in the document and begins at `real` in the cell,
behind an optional header. -/
structure Tiling (uri : String) (text : Text) (offset real : Int) (header : Text)
    (spans : List Span) : Prop where
  /-- The spans stand one behind the other in the document. -/
  tiles_document : Tiles start stop offset spans (offset + (textOf spans).length)
  text_ne_nil : ∀ s ∈ spans, s.text ≠ []
  length_eq : ∀ s ∈ spans, s.length = s.text.length
  /-- Those of them that are text of the cell stand one behind the other in the cell. -/
  tiles_cell : Tiles realStart realStop real (spans.filter verbatim) (real + text.length)
  realLength_eq : ∀ s ∈ spans, s.verbatim = true → s.realStop - s.realStart = s.text.length
  textOf_verbatim : textOf (spans.filter verbatim) = text
  /-- Behind the header, text of the cell comes first and takes turns with annotations. -/
  turns : ∃ body, spans = headerSpans uri header offset real ++ body ∧
    (∀ s, body.head? = some s → s.verbatim = true) ∧ body.IsChain Turn

section Place

variable (uri : String)

/-- Each span of a layout is one of the pieces, with offsets. -/
theorem exists_placed_of_mem_place {offset real : Int} {pieces : List Piece} {s : Span}
    (h : s ∈ place uri offset real pieces) : ∃ p ∈ pieces, ∃ o r, s = p.placed uri o r := by
  induction pieces generalizing offset real with
  | nil => cases h
  | cons p pieces ih =>
    rw [place_cons] at h
    rcases List.mem_cons.1 h with rfl | h
    · exact ⟨p, List.mem_cons_self, offset, real, rfl⟩
    · obtain ⟨q, hq, hs⟩ := ih h
      exact ⟨q, List.mem_cons_of_mem p hq, hs⟩

/-- Placed pieces stand one behind the other in the document. -/
theorem tiles_place (offset real : Int) (pieces : List Piece) :
    Tiles start stop offset (place uri offset real pieces) (offset + (shown pieces).length) := by
  induction pieces generalizing offset real with
  | nil =>
    rw [Piece.shown_nil, List.length_nil, Int.natCast_zero, Int.add_zero]
    exact .nil offset
  | cons p pieces ih =>
    rw [place_cons, Piece.shown_cons, List.length_append, Int.natCast_add, ← Int.add_assoc]
    exact .cons rfl (ih _ _)

/-- **Verbatim pieces stand one behind the other in the cell.** Injected pieces take no place
there. -/
theorem tiles_filter_place (offset real : Int) (pieces : List Piece) :
    Tiles realStart realStop real ((place uri offset real pieces).filter verbatim)
      (real + (written pieces).length) := by
  induction pieces generalizing offset real with
  | nil =>
    rw [Piece.written_nil, List.length_nil, Int.natCast_zero, Int.add_zero]
    exact .nil real
  | cons p pieces ih =>
    cases p with
    | verbatim t =>
      rw [Piece.written_verbatim, List.length_append, Int.natCast_add, ← Int.add_assoc]
      exact .cons rfl (ih _ _)
    | injected t => exact ih _ _

theorem textOf_filter_place (offset real : Int) (pieces : List Piece) :
    textOf ((place uri offset real pieces).filter verbatim) = written pieces := by
  induction pieces generalizing offset real with
  | nil => rfl
  | cons p pieces ih =>
    cases p with
    | verbatim t => exact congrArg (t ++ ·) (ih _ _)
    | injected t => exact ih _ _

theorem verbatim_of_head?_place {offset real : Int} {pieces : List Piece} (h : Alternates pieces)
    {s : Span} (hs : (place uri offset real pieces).head? = some s) : s.verbatim = true := by
  cases h with
  | nil => cases hs
  | last _ => rw [← Option.some.inj hs]
  | marked _ _ => rw [← Option.some.inj hs]

/-- **Placed pieces in turn are spans in turn.** -/
theorem isChain_place (offset real : Int) {pieces : List Piece} (h : Alternates pieces) :
    (place uri offset real pieces).IsChain Turn := by
  induction h generalizing offset real with
  | nil => exact .nil
  | last _ => exact .singleton _
  | marked _ hrest ih =>
    refine ((ih _ _).cons fun s hs ↦ ?_).cons_cons ?_
    · exact .verbatim rfl (verbatim_of_head?_place uri hrest hs)
    · exact .injected rfl rfl rfl rfl rfl

/-- The header stands in front of the text, which is placed where the header stops. -/
theorem layOut_eq_append (text : Text) (offset real : Int) (header : Text) (annotate : Bool) :
    layOut uri text offset real header annotate = headerSpans uri header offset real ++
      place uri (offset + header.length) real (Piece.ofText annotate text) := by
  rw [layOut, Piece.withHeader, headerSpans]
  split
  · rename_i hnone
    rw [List.isEmpty_iff.1 hnone, List.length_nil, Int.natCast_zero, Int.add_zero, List.nil_append]
  · rfl

end Place

theorem written_layOut (text header : Text) (annotate : Bool) :
    written (Piece.withHeader header (Piece.ofText annotate text)) = text := by
  rw [Piece.written_withHeader, Piece.written_ofText]

/-- **A layout tiles the document and the cell**, and no annotation of it stands first or behind
another one. -/
theorem layOut_tiling (uri : String) (text : Text) (offset real : Int) (header : Text)
    (annotate : Bool) :
    Tiling uri text offset real header (layOut uri text offset real header annotate) where
  tiles_document := by
    rw [layOut, textOf_place]
    exact tiles_place uri offset real _
  text_ne_nil := by
    intro s hs
    obtain ⟨p, hp, o, r, rfl⟩ := exists_placed_of_mem_place uri hs
    exact (Piece.alternates_ofText annotate text).text_ne_nil_of_mem_withHeader hp
  length_eq := by
    intro s hs
    obtain ⟨p, -, o, r, rfl⟩ := exists_placed_of_mem_place uri hs
    show o + p.text.length - o = (p.text.length : Int)
    omega
  tiles_cell := by
    have htiles := tiles_filter_place uri offset real
      (Piece.withHeader header (Piece.ofText annotate text))
    rwa [written_layOut] at htiles
  realLength_eq := by
    intro s hs hverbatim
    obtain ⟨p, -, o, r, rfl⟩ := exists_placed_of_mem_place uri hs
    cases p with
    | verbatim t =>
      show r + t.length - r = (t.length : Int)
      omega
    | injected t => cases hverbatim
  textOf_verbatim := by rw [layOut, textOf_filter_place, written_layOut]
  turns := by
    have hpieces := Piece.alternates_ofText annotate text
    exact ⟨_, layOut_eq_append uri text offset real header annotate,
      fun s hs ↦ verbatim_of_head?_place uri hpieces hs, isChain_place uri _ _ hpieces⟩

/-- An annotation before a carriage return, and one at the end of the text. -/
example : layOut "nb-cell:a" "!ls\r\n%pwd".toList 10 0 ['\n'] true =
    [⟨"nb-cell:a", ['\n'], 10, 11, 0, 0, false⟩,
      ⟨"nb-cell:a", "!ls".toList, 11, 14, 0, 3, true⟩,
      ⟨"nb-cell:a", skipMark, 14, 29, 3, 3, false⟩,
      ⟨"nb-cell:a", "\r\n%pwd".toList, 29, 35, 3, 9, true⟩,
      ⟨"nb-cell:a", skipMark, 35, 50, 9, 9, false⟩] := by
  decide

end Span

end CellStitch
