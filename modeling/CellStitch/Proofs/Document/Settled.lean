import CellStitch.Proofs.Document.Layout
/-!
# Settled documents

A document is *settled* if what it keeps is what its cells make of it: the spans are those that a
rebuild gives, the text is that of the spans, and the line starts are those of the text.

A `Document.Site` is the place of a cell in a settled document, with all that stands before it and
behind it. Putting another text into the cell at a site leaves the document settled
(`Site.settled_put`): the spans behind it only move.

A settled document answers questions about offsets and positions as its text does
(`Settled.positionAt_eq`, `Settled.offsetAt_eq`).
-/

namespace CellStitch

namespace Document

open Piece (shown written)

/-- What a document keeps is what its cells make of it. -/
structure Settled (d : Document) : Prop where
  spans_eq : d.spansFrom 0 d.cells = .ok d.spans
  text_eq : d.text = d.spans.flatMap Span.textOf
  lineStarts_eq : d.lineStarts = d.text.lineStarts

/-- A settled document is the one that a rebuild gives. -/
theorem Settled.rebuild {d : Document} (hd : d.Settled) : d.rebuild = .ok d := by
  rw [Document.rebuild, hd.spans_eq]
  show Except.ok _ = _
  rw [setText, ← hd.text_eq, ← hd.lineStarts_eq]

/-- **A rebuild settles a document**, and keeps its cells and its version. -/
theorem settled_of_rebuild {d d' : Document} (h : d.rebuild = .ok d') :
    d'.Settled ∧ d.SameSetup d' ∧ d'.cells = d.cells ∧ d'.version = d.version := by
  obtain ⟨spans, hspans, h⟩ := bind_eq_ok_iff.1 h
  have hsame : d.SameSetup d' := by
    rw [← Except.ok.inj h]
    exact ⟨rfl, rfl, rfl⟩
  have hd' := (Except.ok.inj h).symm
  refine ⟨⟨?_, ?_, ?_⟩, hsame, ?_, ?_⟩
  · rw [hsame.spansFrom_eq, hd']
    exact hspans
  all_goals rw [hd']; rfl

/-- A new document is settled, and has no cells and no text. -/
theorem settled_of_new {uri : String} {settings : Settings} {d : Document}
    (h : Document.new uri settings = .ok d) :
    d.Settled ∧ d.cells = [] ∧ d.text = [] ∧ d.version = 0 ∧ d.uri = uri := by
  obtain ⟨header, -, h⟩ := bind_eq_ok_iff.1 h
  obtain rfl := Except.ok.inj h
  exact ⟨⟨rfl, rfl, rfl⟩, rfl, rfl, rfl, rfl⟩

/-! ### Sites -/

/-- Where the first cell with a URI stands in a document. -/
structure Site (d : Document) (uri : String) where
  before : CellList
  cell : Cell
  after : CellList
  spansBefore : List (List Span)
  spansAfter : List (List Span)
  firstAt : d.cells.FirstAt uri before cell after
  spansFrom_before : d.spansFrom 0 before = .ok spansBefore
  /-- The URI has been looked at if the header might stand in front of the cell. -/
  isInput_eq : (shownLength spansBefore : Int) = 0 → ∃ b, isInput cell.uri = .ok b
  spansFrom_after : d.spansFrom (shownLength spansBefore +
    (shown (d.piecesAt cell (shownLength spansBefore))).length) after = .ok spansAfter
  spans_eq : d.spans = spansBefore ++ Span.place cell.uri (shownLength spansBefore) 0
    (d.piecesAt cell (shownLength spansBefore)) :: spansAfter

/-- The first cell with a URI has a site, with the cells in front of it and behind it. -/
theorem Settled.exists_site_of_firstAt {d : Document} (hd : d.Settled) {uri : String}
    {before after : CellList} {c : Cell} (h : d.cells.FirstAt uri before c after) :
    ∃ s : d.Site uri, s.before = before ∧ s.cell = c ∧ s.after = after := by
  have hspans := hd.spans_eq
  rw [h.cells_eq, spansFrom_append_eq_ok_iff] at hspans
  obtain ⟨front, back, hfront, hback, hspans⟩ := hspans
  rw [Int.zero_add, spansFrom_cons_eq_ok_iff] at hback
  obtain ⟨hin, rest, hrest, rfl⟩ := hback
  exact ⟨⟨before, c, after, front, rest, h, hfront, hin, hrest, hspans⟩, rfl, rfl, rfl⟩

/-- A cell that is found by its URI has a site. -/
theorem Settled.exists_site {d : Document} (hd : d.Settled) {uri : String} {c : Cell}
    (h : d.cells.cell? uri = some c) : ∃ s : d.Site uri, s.cell = c := by
  obtain ⟨before, after, hfirst⟩ := CellList.exists_firstAt h
  obtain ⟨s, -, hcell, -⟩ := hd.exists_site_of_firstAt hfirst
  exact ⟨s, hcell⟩

namespace Site

variable {d : Document} {uri : String} (s : d.Site uri)

/-- The offset at which the cell begins. -/
def offset : Nat := shownLength s.spansBefore

/-- The pieces of the cell, the header included if it stands in front. -/
def pieces : List Piece := d.piecesAt s.cell s.offset

/-- The text in front of the cell. -/
def front : Text := s.spansBefore.flatMap Span.textOf

/-- The text behind the cell. -/
def back : Text := s.spansAfter.flatMap Span.textOf

/-- The spans of the cell. -/
def spans : List Span := Span.place s.cell.uri s.offset 0 s.pieces

@[simp] theorem length_front : s.front.length = s.offset := rfl

/-- The cell of a site has the URI of the site. -/
theorem uri_cell : s.cell.uri = uri := s.firstAt.uri_eq

/-- A cell is cut into some pieces, since the break behind it is always shown. -/
theorem pieces_ne_nil : s.pieces ≠ [] := d.piecesAt_ne_nil s.cell s.offset

@[simp] theorem written_pieces : written s.pieces = s.cell.text ++ ['\n'] :=
  d.written_piecesAt s.cell s.offset

@[simp] theorem startOf_spans : Span.startOf s.spans = s.offset :=
  Span.startOf_place _ _ _ s.pieces_ne_nil

@[simp] theorem stopOf_spans : Span.stopOf s.spans = s.offset + (shown s.pieces).length :=
  Span.stopOf_place _ _ _ s.pieces_ne_nil

@[simp] theorem textOf_spans : Span.textOf s.spans = shown s.pieces :=
  Span.textOf_place _ _ _ _

/-- The spans of the other cells stand around those of the cell. -/
theorem spans_eq' : d.spans = s.spansBefore ++ s.spans :: s.spansAfter := s.spans_eq

/-- There are as many lists of spans in front as cells in front. -/
theorem length_spansBefore : s.spansBefore.length = s.before.length :=
  d.length_of_spansFrom_eq_ok s.spansFrom_before

/-- **The text of a document falls into three parts**, with the cell in the middle. -/
theorem text_eq (hd : d.Settled) : d.text = s.front ++ shown s.pieces ++ s.back := by
  rw [hd.text_eq, s.spans_eq', List.flatMap_append, List.flatMap_cons, textOf_spans,
    List.append_assoc]
  rfl

/-- Cells and spans stand side by side at the place of the cell. -/
theorem getElem?_zip : (d.cells.zip d.spans)[s.before.length]? = some (s.cell, s.spans) := by
  rw [s.firstAt.cells_eq, s.spans_eq', List.zip_append s.length_spansBefore.symm,
    List.zip_cons_cons, List.getElem?_append_right (by simp [s.length_spansBefore])]
  simp [s.length_spansBefore]

/-- The cell and its spans are found by the URI. -/
theorem lookUp_eq : d.lookUp uri = .ok (s.cell, s.spans) := by
  rw [lookUp, s.firstAt.indexOf?]
  simp only [s.getElem?_zip]

/-! ### Another cell in its place -/

/-- The document with another cell at the site. -/
def put (c : Cell) : Document :=
  let pieces := d.piecesAt c s.offset
  let delta : Int := (shown pieces).length - (shown s.pieces).length
  { d with
    cells := s.before ++ c :: s.after
    spans := s.spansBefore ++ Span.place c.uri s.offset 0 pieces ::
      s.spansAfter.map (·.map (·.shift delta))
    text := s.front ++ shown pieces ++ s.back
    lineStarts := (s.front ++ shown pieces ++ s.back).lineStarts }

/-- Only the cells change when a cell is put in place of another. -/
theorem sameSetup_put (c : Cell) : d.SameSetup (s.put c) := ⟨rfl, rfl, rfl⟩

/-- Spans that move show what they showed. -/
theorem flatMap_textOf_shift (delta : Int) (spans : List (List Span)) :
    (spans.map (·.map (·.shift delta))).flatMap Span.textOf = spans.flatMap Span.textOf := by
  rw [List.flatMap_map]
  congr 1
  funext ss
  rw [Span.textOf, List.flatMap_map]
  rfl

/-- **A document stays settled when a cell with the same URI takes the place of another.** -/
theorem settled_put {c : Cell} (hc : c.uri = uri) : (s.put c).Settled := by
  have hlen := length_shown_piecesAt_pos d s.cell s.offset
  have hlen' := length_shown_piecesAt_pos d c s.offset
  refine ⟨?_, ?_, rfl⟩
  · have hcongr : (s.put c).spansFrom 0 (s.put c).cells = d.spansFrom 0 (s.put c).cells :=
      (s.sameSetup_put c).spansFrom_eq 0 _
    rw [hcongr]
    refine d.spansFrom_append_eq_ok_iff.2 ⟨s.spansBefore, _, s.spansFrom_before, ?_, rfl⟩
    rw [Int.zero_add]
    refine d.spansFrom_cons_eq_ok_iff.2 ⟨?_, _, ?_, rfl⟩
    · rw [hc]
      have hin := s.isInput_eq
      rwa [s.uri_cell] at hin
    · -- what stands behind the cell stands behind the start of the document
      have hmoved := d.spansFrom_shift
        ((shown (d.piecesAt c s.offset)).length - (shown s.pieces).length)
        (by simp only [offset] at hlen; omega)
        (by simp only [pieces, offset] at hlen hlen' ⊢; omega) s.spansFrom_after
      rw [← hmoved]
      congr 1
      simp only [pieces, offset]
      omega
  · simp only [put, List.flatMap_append, List.flatMap_cons, Span.textOf_place, front, back,
      flatMap_textOf_shift, List.append_assoc]

end Site

/-! ### Offsets and positions -/

/-- What cells show is nothing if there are none of them, and else is ended by a break. -/
theorem ends_of_spansFrom {d : Document} {cells : CellList} {offset : Int}
    {spans : List (List Span)} (h : d.spansFrom offset cells = .ok spans) :
    (cells = [] ∧ spans.flatMap Span.textOf = []) ∨
      (cells ≠ [] ∧ ∃ t, spans.flatMap Span.textOf = t ++ ['\n']) := by
  induction cells generalizing offset spans with
  | nil =>
    cases h
    exact .inl ⟨rfl, rfl⟩
  | cons c cells ih =>
    obtain ⟨-, rest, hrest, rfl⟩ := d.spansFrom_cons_eq_ok_iff.1 h
    refine .inr ⟨List.cons_ne_nil c cells, ?_⟩
    rw [List.flatMap_cons, Span.textOf_place, shown_piecesAt]
    rcases ih hrest with ⟨-, hnil⟩ | ⟨-, t, ht⟩
    · rw [hnil, List.append_nil, ← List.append_assoc]
      exact ⟨_, rfl⟩
    · rw [ht, ← List.append_assoc]
      exact ⟨_, rfl⟩

namespace Settled

variable {d : Document} (hd : d.Settled)
include hd

/-- A document without cells has no text, and one with cells has some. -/
theorem text_eq_nil_iff : d.text = [] ↔ d.cells = [] := by
  rw [hd.text_eq]
  rcases ends_of_spansFrom hd.spans_eq with ⟨hcells, htext⟩ | ⟨hcells, t, ht⟩
  · exact ⟨fun _ ↦ hcells, fun _ ↦ htext⟩
  · simp [hcells, ht]

/-- A position of the document is one of its text. -/
theorem positionAt_eq {o : Nat} (ho : o ≤ d.text.length) :
    d.positionAt o = d.text.positionAt o := by
  rw [Document.positionAt, hd.lineStarts_eq, Text.clamp_natCast ho, Text.ofLineStarts_lineStarts ho]

/-- Every line but the one behind the last break is counted. -/
theorem lineCount_eq : d.lineCount = d.text.lines.length - 1 := by
  rw [lineCount, hd.lineStarts_eq, Text.length_lineStarts]

/-- The line behind the last one is empty, and is the end of the text. -/
theorem offsetAt?_lineCount (k : Nat) : d.text.offsetAt? ⟨d.lineCount, k⟩ = some d.text.length := by
  rw [hd.lineCount_eq]
  -- without cells the only line is the first one, which is empty
  rcases ends_of_spansFrom hd.spans_eq with ⟨-, htext⟩ | ⟨-, t, ht⟩
  · rw [hd.text_eq, htext]
    exact Text.offsetAt?_nil_zero k
  · rw [hd.text_eq, ht]
    have hlines : Text.lines (t ++ ['\n']) = Text.lines t ++ [[]] := Text.lines_append_break t []
    simp [Text.offsetAt?, hlines, Text.lengthWithBreaks_lines]

/-- A line starts behind all lines in front of it. -/
theorem lineStart_eq {n : Nat} (h : n < d.text.lines.length) :
    d.lineStart n = Text.lengthWithBreaks (d.text.lines.take n) := by
  rw [lineStart, hd.lineStarts_eq, Text.getD_lineStarts h]

/-- A line stops where the next one starts, the break between them apart. -/
theorem lineLength_eq {n : Nat} {line : Text} (hn : n < d.lineCount)
    (h : d.text.lines[n]? = some line) : d.lineLength n = line.length := by
  have hcount := hd.lineCount_eq
  have hnext := Text.lengthWithBreaks_take_succ h
  rw [lineLength, hd.lineStart_eq (by omega), hd.lineStart_eq (by omega), hnext]
  omega

/-- **An offset of the document is one of its text**, also behind the last line. -/
theorem offsetAt_eq {p : Position} {o : Nat} (h : d.text.offsetAt? p = some o) :
    d.offsetAt p = .ok o := by
  have hlt := Text.lt_of_offsetAt?_eq_some h
  have hcount := hd.lineCount_eq
  rw [Document.offsetAt, if_neg (by omega)]
  by_cases hline : p.line = d.lineCount
  · rw [if_pos hline]
    obtain ⟨l, k⟩ := p
    obtain rfl : l = d.lineCount := hline
    rw [hd.offsetAt?_lineCount] at h
    exact congrArg _ (Option.some.inj h)
  · have hget := List.getElem?_eq_getElem hlt
    rw [Text.offsetAt?, hget, Option.map_some, Option.some_inj] at h
    rw [if_neg hline, hd.lineStart_eq hlt, hd.lineLength_eq (by omega) hget, h]

end Settled

end Document

end CellStitch
