import CellStitch.Proofs.Bisection
import CellStitch.Proofs.Document.Coverage
import CellStitch.Proofs.Document.Determined
import CellStitch.Proofs.Document.Rebuild
import CellStitch.Proofs.Span.Columns
import CellStitch.Workspace.Report
/-!
# Ranges that a server reports

A range that was found in an older text may start behind the end of a document, stop behind it, or
stop before it starts. All the same it has a location in a cell, unless it starts behind the end or
in the header (`Settled.reported_cases`).

A cell is found here by its place and not by its URI, since nothing is known of the URIs: the
starts of the cells are counted up to an offset, and the cell with that number shows the offset
(`Settled.exists_cellIndexAt`). The location names the cell by its URI, and so its range is one of
the first cell with that URI.
-/

namespace CellStitch

namespace Document

open Piece (shown toWritten)

variable {d : Document}

/-! ### The cell that shows an offset -/

/-- The cell at a place shows an offset. The end of the document belongs to the last one. -/
structure ShowsAt (d : Document) (o : Nat) (i : Nat) (c : Cell) (spans : List Span) : Prop where
  cell_eq : d.cells[i]? = some c
  spans_eq : d.spans[i]? = some spans
  start_le : Span.startOf spans ≤ o
  lt_stop : (o : Int) < Span.stopOf spans ∨ o = d.text.length

/-- The start of each cell that is not counted lies behind the offset. -/
theorem lt_startOf_of_countUpTo_eq {o k : Nat} {spans : List Span}
    (hk : countUpTo (d.spans.map Span.startOf) (o : Int) = k) (hspans : d.spans[k]? = some spans) :
    (o : Int) < Span.startOf spans :=
  lt_of_countUpTo_eq hk (by rw [List.getElem?_map, hspans, Option.map_some])

/-- **Counting the cells finds the one that shows an offset.** -/
theorem Settled.exists_cellIndexAt (hd : d.Settled) (hcells : d.cells ≠ []) {o : Nat}
    (ho : o ≤ d.text.length) : ∃ c spans, d.ShowsAt o (d.cellIndexAt o) c spans := by
  have hlength := d.length_of_spansFrom_eq_ok hd.spans_eq
  have hpos : 0 < d.spans.length := hlength ▸ List.length_pos_iff.2 hcells
  obtain ⟨n, hn⟩ : ∃ n, countUpTo (d.spans.map Span.startOf) (o : Int) = n := ⟨_, rfl⟩
  have hnle : n ≤ d.spans.length := by
    rw [← hn, ← List.length_map (f := Span.startOf)]
    exact countUpTo_le _ _
  -- the first cell starts at 0, and is counted
  obtain ⟨i, rfl⟩ : ∃ i, n = i + 1 := by
    refine Nat.exists_eq_add_one_of_ne_zero ?_
    rintro rfl
    obtain ⟨spans, hspans⟩ : ∃ spans, d.spans[0]? = some spans := ⟨_, List.getElem?_eq_getElem hpos⟩
    have hlt := lt_startOf_of_countUpTo_eq hn hspans
    rw [startOf_of_spansFrom hd.spans_eq hspans, List.take_zero, shownLength_nil] at hlt
    omega
  have hindex : d.cellIndexAt o = i := by
    rw [cellIndexAt, hn]
    omega
  obtain ⟨spans, hspans⟩ : ∃ spans, d.spans[i]? = some spans := ⟨_, List.getElem?_eq_getElem hnle⟩
  obtain ⟨c, hc⟩ := exists_cell_of_spansFrom hd.spans_eq hspans
  have hstop := stopOf_of_spansFrom hd.spans_eq hspans
  refine ⟨c, spans, ?_⟩
  rw [hindex]
  refine ⟨hc, hspans, ?_, ?_⟩
  · have hcounted : i < countUpTo (d.spans.map Span.startOf) (o : Int) := by
      rw [hn]
      exact Nat.lt_succ_self i
    refine le_of_lt_countUpTo hcounted ?_
    rw [List.getElem?_map, hspans, Option.map_some]
  · rcases hnext : d.spans[i + 1]? with - | spans'
    · -- the last cell stops where the document does
      rw [List.take_of_length_le (List.getElem?_eq_none_iff.1 hnext), shownLength, ← hd.text_eq]
        at hstop
      omega
    · have hlt := lt_startOf_of_countUpTo_eq hn hnext
      rw [startOf_of_spansFrom hd.spans_eq hnext, ← hstop] at hlt
      exact .inl hlt

/-- The way back to a cell always leads somewhere. -/
theorem Settled.exists_notebookOffsetAt (hd : d.Settled) (hcells : d.cells ≠ []) {p : Position}
    {o : Nat} (hp : d.offsetAt p = .ok o) (ho : o ≤ d.text.length) :
    ∃ i c spans real, d.ShowsAt o i c spans ∧ d.notebookOffsetAt p = .ok (c.uri, real) := by
  obtain ⟨c, spans, hshows⟩ := hd.exists_cellIndexAt hcells ho
  have hstart := startOf_of_spansFrom hd.spans_eq hshows.spans_eq
  have hplace := (getElem?_of_spansFrom hd.spans_eq hshows.cell_eq hshows.spans_eq).1
  rw [← hstart] at hplace
  -- the offset lies behind the start of the spans
  obtain ⟨k, hk⟩ : ∃ k : Nat, (o : Int) = Span.startOf spans + k :=
    ⟨((o : Int) - Span.startOf spans).toNat, by have := hshows.start_le; omega⟩
  obtain ⟨real, hreal⟩ : ∃ real, Span.toReal spans o = .ok real := by
    have hback := Span.toReal_place c.uri (d.piecesAt_ne_nil c (Span.startOf spans))
      (Span.startOf spans) 0 k
    rw [← hplace, ← hk] at hback
    exact ⟨_, hback⟩
  have hfound : (d.cells.zip d.spans)[d.cellIndexAt o]? = some (c, spans) :=
    List.getElem?_zip_eq_some.2 ⟨hshows.cell_eq, hshows.spans_eq⟩
  refine ⟨_, c, spans, min real c.text.length, hshows, ?_⟩
  rw [notebookOffsetAt, hp, ok_bind, hfound]
  show (Span.toReal spans o >>= fun real ↦ _) = _
  rw [hreal]
  rfl

/-- **A range has a location**, whose range is one of the first cell with the URI of the cell that
shows where the given range starts. -/
theorem Settled.exists_notebookLocationAt (hd : d.Settled) (hcells : d.cells ≠ []) {r : Range}
    {x y : Nat} (hx : d.offsetAt r.start = .ok x) (hxle : x ≤ d.text.length)
    (hy : d.offsetAt r.stop = .ok y) (hyle : y ≤ d.text.length) :
    ∃ i c spans first range, d.ShowsAt x i c spans ∧ d.cells.cell? c.uri = some first ∧
      d.notebookLocationAt r = .ok ⟨c.uri, range⟩ ∧ first.text.HasPosition range.start ∧
      first.text.HasPosition range.stop ∧ range.start ≤ range.stop := by
  obtain ⟨i, c, spans, a, hshows, ha⟩ := hd.exists_notebookOffsetAt hcells hx hxle
  obtain ⟨-, c', -, b, -, hb⟩ := hd.exists_notebookOffsetAt hcells hy hyle
  obtain ⟨first, hfirst⟩ : ∃ first, d.cells.cell? c.uri = some first := by
    rcases hnone : d.cells.cell? c.uri with - | first
    · exact absurd rfl (CellList.cell?_eq_none_iff.1 hnone c (List.mem_of_getElem? hshows.cell_eq))
    · exact ⟨first, rfl⟩
  obtain ⟨stop, hstop⟩ : ∃ stop : Int, (if c'.uri = c.uri then b else first.text.length) = stop :=
    ⟨_, rfl⟩
  refine ⟨i, c, spans, first, ⟨first.positionAt a, first.positionAt (max stop a)⟩, hshows, hfirst,
    ?_, Text.hasPosition_positionAt_int _ _, Text.hasPosition_positionAt_int _ _,
    Text.positionAt_mono_int _ (Int.le_max_right stop a)⟩
  rw [notebookLocationAt, ha, ok_bind]
  simp only [hfirst]
  rw [hb, ok_bind, ← hstop]
  rfl

/-! ### The header -/

theorem Settled.leadingHeader_prefix (hd : d.Settled) : d.leadingHeader <+: d.text := by
  rw [hd.text_eq_shownBy]
  exact List.prefix_append _ _

/-- **A position lies in the header** exactly if its offset does. What the first cell shows behind
the header begins with its own text, so that no annotation is taken for a header. -/
theorem Settled.inHeader_eq (hd : d.Settled) {p : Position} {o : Nat} (hp : d.offsetAt p = .ok o) :
    d.inHeader p = .ok (decide (o < d.leadingHeader.length)) := by
  have hspans := hd.spans_eq
  rcases hcells : d.cells with - | ⟨c, cells⟩ <;> rw [hcells] at hspans
  · obtain hnone : [] = d.spans := Except.ok.inj hspans
    simp [inHeader, ← hnone, leadingHeader, hcells]
  · obtain ⟨-, rest, -, hfirst⟩ := d.spansFrom_cons_eq_ok_iff.1 hspans
    obtain ⟨u, pieces, hu⟩ := Piece.exists_ofText_eq d.settings.marks c.text
    have hleading : d.leadingHeader = d.headerAt c.uri 0 := by rw [leadingHeader, hcells]
    rw [inHeader, hfirst, piecesAt, hu, Piece.withHeader, ← hleading]
    rcases d.leadingHeader with - | ⟨a, header⟩
    · simp [Span.place]
    · simp only [List.isEmpty_cons, Bool.false_eq_true, if_false, Span.place, List.head?_cons,
        Option.bind_some, hp, ok_bind, Int.zero_add, Int.ofNat_lt]
      rfl

/-! ### What is reported -/

/-- A range that is not reported: it starts behind the end, or in the header. -/
def Skips (d : Document) (r : Range) : Prop :=
  d.lineCount ≤ r.start.line ∨ ∃ o, d.offsetAt r.start = .ok o ∧ o < d.leadingHeader.length

theorem Settled.line_positionAt_length (hd : d.Settled) :
    (d.text.positionAt d.text.length).line = d.lineCount := by
  rw [Text.positionAt_natCast (Nat.le_refl _), List.take_length, hd.lineCount_eq,
    Text.length_lines, Nat.add_sub_cancel]

/-- A position on a line of the document stands in front of its end. -/
theorem Settled.exists_offsetAt_lt (hd : d.Settled) {p : Position} (hp : p.line < d.lineCount) :
    ∃ o, d.offsetAt p = .ok o ∧ o < d.text.length := by
  have hlines : p.line < d.text.lines.length := by
    have hcount := hd.lineCount_eq
    omega
  obtain ⟨o, ho⟩ := Text.exists_offsetAt?_of_lt hlines
  obtain ⟨hle, hpos⟩ := Text.positionAt_of_offsetAt? ho
  refine ⟨o, hd.offsetAt_eq ho, Nat.lt_of_le_of_ne hle ?_⟩
  rintro rfl
  -- the end of the document is on the line behind the last one
  have hline := congrArg Position.line hpos
  rw [hd.line_positionAt_length] at hline
  exact Nat.ne_of_gt hp hline

/-- What is left of a range starts where the range does, and stops in the document. -/
theorem Settled.exists_within (hd : d.Settled) {r : Range} (hr : r.start.line < d.lineCount) :
    ∃ stop, d.within r = some ⟨r.start, stop⟩ ∧ stop.line ≤ d.lineCount := by
  rw [within, if_neg (Nat.not_le.2 hr)]
  split
  · rename_i hstop
    exact ⟨r.stop, rfl, Nat.le_of_lt hstop⟩
  · refine ⟨_, rfl, ?_⟩
    rw [hd.positionAt_eq (Nat.le_refl _), hd.line_positionAt_length]

/-- A location that is reported for a range: it names the cell at a place, which shows where the
range starts, and its range is one of the first cell with that name. -/
structure ReportsAt (d : Document) (r : Range) (l : Location) (i : Nat) (c first : Cell) :
    Prop where
  exists_shows : ∃ spans o, d.cells[i]? = some c ∧ d.spans[i]? = some spans ∧
    d.offsetAt r.start = .ok o ∧ Span.startOf spans ≤ o ∧ (o : Int) < Span.stopOf spans
  uri_eq : l.uri = c.uri
  cell?_eq : d.cells.cell? c.uri = some first
  hasPosition_start : first.text.HasPosition l.range.start
  hasPosition_stop : first.text.HasPosition l.range.stop
  start_le_stop : l.range.start ≤ l.range.stop

/-- **A range is reported** unless it starts behind the end or in the header. -/
theorem Settled.reported_cases (hd : d.Settled) (r : Range) :
    (d.Skips r ∧ d.reported r = .ok none) ∨
      (¬ d.Skips r ∧ ∃ l i c first, d.reported r = .ok (some l) ∧ d.ReportsAt r l i c first) := by
  rcases Nat.lt_or_ge r.start.line d.lineCount with hline | hbehind
  · obtain ⟨x, hx, hlt⟩ := hd.exists_offsetAt_lt hline
    obtain ⟨stop, hwithin, hstop⟩ := hd.exists_within hline
    have hin := hd.inHeader_eq hx
    rcases Decidable.em (x < d.leadingHeader.length) with hheader | hbody
    · refine .inl ⟨.inr ⟨x, hx, hheader⟩, ?_⟩
      rw [reported, hwithin]
      simp only [hin, ok_bind, decide_eq_true hheader]
      rfl
    · have hcells : d.cells ≠ [] := by
        intro hnone
        rw [hd.text_eq_nil_iff.2 hnone] at hlt
        exact absurd hlt (Nat.not_lt_zero x)
      obtain ⟨y, hy, hyle⟩ := hd.exists_offsetAt hstop
      obtain ⟨i, c, spans, first, range, hshows, hfirst, hlocation, hstart', hstop', hle⟩ :=
        hd.exists_notebookLocationAt hcells (r := ⟨r.start, stop⟩) hx (Nat.le_of_lt hlt) hy hyle
      refine .inr ⟨?_, ⟨c.uri, range⟩, i, c, first, ?_, ⟨⟨spans, x, hshows.cell_eq,
        hshows.spans_eq, hx, hshows.start_le, ?_⟩, rfl, hfirst, hstart', hstop', hle⟩⟩
      · rintro (hbehind | ⟨o, ho, hheader⟩)
        · exact Nat.not_le.2 hline hbehind
        · obtain rfl := Except.ok.inj (hx.symm.trans ho)
          exact hbody hheader
      · rw [reported, hwithin]
        simp only [hin, ok_bind, decide_eq_false hbody, hlocation]
        rfl
      · exact hshows.lt_stop.resolve_right (Nat.ne_of_lt hlt)
  · refine .inl ⟨.inl hbehind, ?_⟩
    rw [reported, within, if_pos hbehind]

end Document

end CellStitch
