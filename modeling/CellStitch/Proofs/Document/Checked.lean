import CellStitch.Document.Checked
import CellStitch.Proofs.Document.ClientEdit
import CellStitch.Proofs.Document.Reported
import CellStitch.Proofs.Document.Wire
/-!
# Questions fail as they are specified to

A question to a document fails only where its arguments are at fault: at a line that the document,
or the cell, does not have, or at a URI that names no cell. Which of these it is, the arguments tell
beforehand (`Document.lineFault`, `Cell.lineFault`, `Document.readFault`), and every reachable
document fails exactly then (`Reachable.failsAsSpecified`).

That nothing else goes wrong is said by the questions with checked look-ups: they have the outcome
of the questions without checks, so that every entry of a list that is looked up is there. Line
starts reach one line further than there are lines; there are as many lists of spans as cells, and
none of them is empty (`Settled.exists_cons_of_mem_spans`); and the line starts begin with 0.
-/

namespace CellStitch

/-- The failure of a position of a cell: the cell does not have its line. -/
def Cell.lineFault (c : Cell) (p : Position) : Option Failure :=
  if p.line < c.text.lines.length then none
  else some (.lineOutOfRange p.line c.text.lines.length)

/-- The URI of a cell that is there finds some cell, the first one with that URI. -/
theorem CellList.exists_cell?_of_mem {cells : CellList} {c : Cell} (h : c ∈ cells) :
    ∃ first, cells.cell? c.uri = some first := by
  rw [← Option.isSome_iff_exists, CellList.cell?, List.find?_isSome]
  exact ⟨c, h, beq_self_eq_true _⟩

/-- A URI that is looked at can only fail by being malformed. -/
theorem eq_of_isInput_eq_error {uri : String} {f : Failure} (h : isInput uri = .error f) :
    f = .malformedUri uri := by
  rw [isInput, Url.parse] at h
  dsimp only at h
  split at h
  · cases h
  · cases h
    rfl

namespace Document

open Cell (exists_offsetAt)
open Checked (entry unchecked)

/-! ### Outcomes -/

/-- The failure of an outcome, if it is one. -/
def failureOf {α : Type} : Except Failure α → Option Failure
  | .ok _ => none
  | .error f => some f

section Outcomes

variable {α β : Type}

@[simp] theorem failureOf_ok (a : α) : failureOf (.ok a) = none := rfl

@[simp] theorem failureOf_error (f : Failure) : failureOf (.error f : Except Failure α) = some f :=
  rfl

@[simp] theorem unchecked_ok (a : α) : unchecked (.ok a) = .ok a := rfl

@[simp] theorem unchecked_error (f : Failure) :
    unchecked (.error f : Except Failure α) = .error (.failure f) := rfl

/-- Steps without checks are taken one after another as they are. -/
theorem unchecked_bind (x : Except Failure α) (g : α → Except Failure β) :
    unchecked (x >>= g) = unchecked x >>= fun a ↦ unchecked (g a) := by
  cases x <;> rfl

/-- An entry that is there is found by its place. -/
theorem entry_of_getElem? {xs : List α} {i : Nat} {a : α} (h : xs[i]? = some a) :
    entry xs i = .ok a := by
  rw [entry, h]

/-- Where a list has an entry, a default in its place has no part in the answer. -/
theorem entry_eq_getD {xs : List α} {i : Nat} (a : α) (h : i < xs.length) :
    entry xs i = .ok (xs.getD i a) := by
  rw [entry, List.getD_eq_getElem?_getD, List.getElem?_eq_getElem h]
  rfl

end Outcomes

/-! ### Look-ups by line -/

section Lines

variable {d : Document}

/-- A line start that is there is the one that is looked up without a check. -/
theorem entry_lineStarts {n : Nat} (h : n < d.lineStarts.length) :
    entry d.lineStarts n = .ok (d.lineStart n) :=
  entry_eq_getD 0 h

/-- A line has a start, and so has what stands behind it. -/
theorem entry_lineStarts_of_lt {n : Nat} (h : n < d.lineCount) :
    entry d.lineStarts n = .ok (d.lineStart n) ∧
      entry d.lineStarts (n + 1) = .ok (d.lineStart (n + 1)) := by
  rw [lineCount] at h
  exact ⟨entry_lineStarts (by omega), entry_lineStarts (by omega)⟩

/-- A line that is there has a start and an end in the list of line starts. -/
theorem checked_lineAt (d : Document) (n : Int) :
    Checked.lineAt d n = unchecked (d.lineAt n) := by
  rw [Checked.lineAt, lineAt]
  split
  · rename_i hin
    obtain ⟨hstart, hnext⟩ := entry_lineStarts_of_lt (d := d) (n := n.toNat) (by omega)
    simp only [hstart, hnext, ok_bind, unchecked_ok]
    rfl
  · rfl

/-- The line of a position has a start and an end in that list, or the position is at the end of the
text. -/
theorem checked_offsetAt (d : Document) (p : Position) :
    Checked.offsetAt d p = unchecked (d.offsetAt p) := by
  rw [Checked.offsetAt, offsetAt]
  split
  · rfl
  · split
    · rfl
    · obtain ⟨hstart, hnext⟩ := entry_lineStarts_of_lt (d := d) (n := p.line) (by omega)
      simp only [hstart, hnext, ok_bind, unchecked_ok]
      rfl

/-- The first line starts at 0, so that some line starts at or before any offset. -/
theorem Settled.checked_positionAt (hd : d.Settled) (o : Int) :
    Checked.positionAt d o = .ok (d.positionAt o) := by
  obtain ⟨n, hn, hlt⟩ := d.text.exists_countUpTo_lineStarts (Text.clamp d.text.length o)
  rw [← hd.lineStarts_eq] at hn hlt
  simp only [Checked.positionAt, hn, entry_lineStarts hlt, ok_bind, positionAt,
    Position.ofLineStarts]
  rfl

end Lines

/-! ### Look-ups by cell -/

section Cells

variable {d : Document}

/-- **No list of spans is empty**, since the break that ends a cell is always shown. -/
theorem Settled.exists_cons_of_mem_spans (hd : d.Settled) {ss : List Span} (hss : ss ∈ d.spans) :
    ∃ first rest, ss = first :: rest := by
  obtain ⟨i, hi⟩ := List.mem_iff_getElem?.1 hss
  obtain ⟨c, hc⟩ := exists_cell_of_spansFrom hd.spans_eq hi
  rw [(getElem?_of_spansFrom hd.spans_eq hc hi).1]
  obtain ⟨p, pieces, hp⟩ := List.exists_cons_of_ne_nil (d.piecesAt_ne_nil c _)
  rw [hp, Span.place_cons]
  exact ⟨_, _, rfl⟩

/-- There is a list of spans for every cell. -/
theorem Settled.length_spans (hd : d.Settled) : d.spans.length = d.cells.length :=
  d.length_of_spansFrom_eq_ok hd.spans_eq

/-- There are no spans exactly if there are no cells. -/
theorem Settled.spans_eq_nil_iff (hd : d.Settled) : d.spans = [] ↔ d.cells = [] := by
  rw [← List.length_eq_zero_iff, hd.length_spans, List.length_eq_zero_iff]

/-- The first span of the first cell is verbatim exactly if no header stands in front of it. -/
theorem Settled.exists_first (hd : d.Settled) (hcells : d.cells ≠ []) :
    ∃ first rest tail, d.spans = (first :: rest) :: tail ∧
      (first.verbatim = true ↔ d.leadingHeader = []) := by
  obtain ⟨c, cells, hcons⟩ := List.exists_cons_of_ne_nil hcells
  have hspans := hd.spans_eq
  rw [hcons] at hspans
  obtain ⟨-, tail, -, hfirst⟩ := d.spansFrom_cons_eq_ok_iff.1 hspans
  obtain ⟨u, pieces, hu⟩ := Piece.exists_ofText_eq d.settings.marks c.text
  have hleading : d.leadingHeader = d.headerAt c.uri 0 := by rw [leadingHeader, hcons]
  rw [hfirst, piecesAt, hu, ← hleading, Piece.withHeader]
  rcases d.leadingHeader with - | ⟨a, header⟩
  · exact ⟨_, _, tail, rfl, by simp⟩
  · exact ⟨_, _, tail, rfl, by simp⟩

/-- The first span of the first cell is there wherever it is looked at. -/
theorem Settled.checked_inHeader (hd : d.Settled) (p : Position) :
    Checked.inHeader d p = unchecked (d.inHeader p) := by
  by_cases hcells : d.cells = []
  · have hnone := hd.spans_eq_nil_iff.2 hcells
    rw [Checked.inHeader, inHeader, hnone]
    rfl
  · obtain ⟨first, rest, tail, hspans, -⟩ := hd.exists_first hcells
    rw [Checked.inHeader, inHeader, hspans, checked_offsetAt]
    show (if first.verbatim = true then _ else _) =
      unchecked (if first.verbatim = true then _ else _)
    split
    · rfl
    · rw [unchecked_bind]
      rfl

/-- The starts of the cells are found by the first spans, and so is the cell of an offset. -/
theorem Settled.checked_cellIndexAt (hd : d.Settled) (o : Nat) :
    Checked.cellIndexAt d o = .ok (d.cellIndexAt o) := by
  -- of any lists that are not empty, the first entries are found
  have hfirsts : ∀ xs : List (List Span), (∀ ss ∈ xs, ∃ first rest, ss = first :: rest) →
      ∃ firsts, (xs.mapM fun ss ↦ entry ss 0) = .ok firsts ∧
        firsts.map Span.start = xs.map Span.startOf := by
    intro xs hxs
    induction xs with
    | nil => exact ⟨[], rfl, rfl⟩
    | cons ss xs ih =>
      obtain ⟨first, rest, rfl⟩ := hxs ss List.mem_cons_self
      obtain ⟨firsts, hok, hstarts⟩ := ih fun ss hss ↦ hxs ss (List.mem_cons_of_mem _ hss)
      refine ⟨first :: firsts, ?_, congrArg (first.start :: ·) hstarts⟩
      rw [List.mapM_cons, hok]
      rfl
  obtain ⟨firsts, hok, hstarts⟩ := hfirsts d.spans fun _ ↦ hd.exists_cons_of_mem_spans
  rw [Checked.cellIndexAt, hok, ok_bind, hstarts]
  rfl

/-- A position has an offset in the text exactly if its line does not lie behind the end. -/
theorem Settled.offsetAt_cases (hd : d.Settled) (p : Position) :
    (p.line ≤ d.lineCount ∧ ∃ o, d.offsetAt p = .ok o ∧ o ≤ d.text.length) ∨
      (d.lineCount < p.line ∧ d.offsetAt p = .error (.lineOutOfRange p.line d.lineCount)) := by
  rcases Nat.lt_or_ge d.lineCount p.line with hbehind | hline
  · exact .inr ⟨hbehind, if_pos hbehind⟩
  · exact .inl ⟨hline, hd.exists_offsetAt hline⟩

/-- A position that has no offset has no place in a cell either, with the same failure. -/
theorem notebookOffsetAt_of_offsetAt_eq_error {p : Position} {f : Failure}
    (h : d.offsetAt p = .error f) : d.notebookOffsetAt p = .error f := by
  rw [notebookOffsetAt, h]
  rfl

/-- Without cells a position means the start of the document. -/
theorem Settled.notebookOffsetAt_of_cells_eq_nil (hd : d.Settled) (hcells : d.cells = [])
    {p : Position} {o : Nat} (h : d.offsetAt p = .ok o) :
    d.notebookOffsetAt p = .ok (d.uri, 0) := by
  rw [notebookOffsetAt, h, hd.spans_eq_nil_iff.2 hcells, List.zip_nil_right]
  rfl

/-- The cell of an offset and its spans are both there. -/
theorem Settled.checked_notebookOffsetAt (hd : d.Settled) (p : Position) :
    Checked.notebookOffsetAt d p = unchecked (d.notebookOffsetAt p) := by
  rw [Checked.notebookOffsetAt, checked_offsetAt]
  rcases hd.offsetAt_cases p with ⟨-, o, hoff, ho⟩ | ⟨-, hoff⟩
  · by_cases hcells : d.cells = []
    · rw [hd.notebookOffsetAt_of_cells_eq_nil hcells hoff, hoff, hd.spans_eq_nil_iff.2 hcells]
      rfl
    · obtain ⟨c, spans, hshows⟩ := hd.exists_cellIndexAt hcells ho
      have hsome : d.spans.isEmpty = false := by
        rw [List.isEmpty_eq_false_iff]
        exact mt hd.spans_eq_nil_iff.1 hcells
      have hfound : (d.cells.zip d.spans)[d.cellIndexAt o]? = some (c, spans) :=
        List.getElem?_zip_eq_some.2 ⟨hshows.cell_eq, hshows.spans_eq⟩
      rw [notebookOffsetAt, hoff, unchecked_ok, ok_bind, ok_bind, hsome, hfound,
        hd.checked_cellIndexAt]
      simp only [Bool.false_eq_true, if_false, ok_bind, entry_of_getElem? hshows.cell_eq,
        entry_of_getElem? hshows.spans_eq, unchecked_bind]
      rfl
  · rw [notebookOffsetAt_of_offsetAt_eq_error hoff, hoff]
    rfl

/-- Both ends of a range are looked up like single positions. -/
theorem Settled.checked_notebookLocationAt (hd : d.Settled) (r : Range) :
    Checked.notebookLocationAt d r = unchecked (d.notebookLocationAt r) := by
  rw [Checked.notebookLocationAt, notebookLocationAt, hd.checked_notebookOffsetAt, unchecked_bind]
  rcases d.notebookOffsetAt r.start with f | ⟨uri, start⟩
  · rfl
  · simp only [unchecked_ok, ok_bind]
    rcases d.cells.cell? uri with - | c
    · rfl
    · simp only [hd.checked_notebookOffsetAt, unchecked_bind]
      rfl

/-- A cell that is found by its URI has its spans at the same place. -/
theorem Settled.checked_lookUp (hd : d.Settled) (uri : String) :
    Checked.lookUp d uri = unchecked (d.lookUp uri) := by
  rw [Checked.lookUp, lookUp]
  rcases hindex : d.cells.indexOf? uri with - | i
  · rfl
  · obtain ⟨before, c, after, -, -, hc⟩ := CellList.exists_firstAt_of_indexOf? hindex
    have hlt : i < d.spans.length := by
      rw [hd.length_spans]
      exact (List.getElem?_eq_some_iff.1 hc).1
    have hspans := List.getElem?_eq_getElem hlt
    have hfound := List.getElem?_zip_eq_some (z := (c, d.spans[i])).2 ⟨hc, hspans⟩
    simp only [entry_of_getElem? hc, entry_of_getElem? hspans, ok_bind, hfound]
    rfl

/-- The spans of a cell are those that are looked up with it. -/
theorem Settled.checked_spansAt (hd : d.Settled) (uri : String) :
    Checked.spansAt d uri = unchecked (d.spansAt uri) := by
  rw [Checked.spansAt, spansAt, hd.checked_lookUp, unchecked_bind]
  rfl

/-- Nothing else is looked up for a position of a cell than the cell and a line start. -/
theorem Settled.checked_positionOf (hd : d.Settled) (l : Location) :
    Checked.positionOf d l = unchecked (d.positionOf l) := by
  rw [Checked.positionOf, positionOf, hd.checked_lookUp]
  simp only [Checked.syntheticAt, unchecked_bind, bind_assoc, hd.checked_positionAt]
  rfl

/-- The two ends of a range of a cell are found like its positions. -/
theorem Settled.checked_rangeOf (hd : d.Settled) (l : Location) :
    Checked.rangeOf d l = unchecked (d.rangeOf l) := by
  rw [Checked.rangeOf, rangeOf, hd.checked_lookUp]
  simp only [Checked.syntheticAt, unchecked_bind, bind_assoc, hd.checked_positionAt, ok_bind]
  rfl

end Cells

/-! ### Faults of arguments -/

/-- The failure of a position: its line lies behind the end of the document. -/
def lineFault (d : Document) (p : Position) : Option Failure :=
  if p.line ≤ d.lineCount then none else some (.lineOutOfRange p.line d.lineCount)

/-- The failure of positions that are read in the cell with a URI: there is no such cell, or it does
not have the line of one of them. The first such position counts. -/
def readFault (d : Document) (uri : String) (ps : List Position) : Option Failure :=
  match d.cells.cell? uri with
  | none => some (.cellNotFound uri)
  | some c => ps.findSome? c.lineFault

section Faults

variable {d : Document}

/-- A line is there exactly if its number is one of a line. -/
theorem failureOf_lineAt (d : Document) (n : Int) : failureOf (d.lineAt n) =
    if 0 ≤ n ∧ n < d.lineCount then none else some (.lineOutOfRange n d.lineCount) := by
  rw [lineAt]
  split <;> rfl

/-- A position fails exactly if its line lies behind the end of the text. -/
theorem Settled.failureOf_offsetAt (hd : d.Settled) (p : Position) :
    failureOf (d.offsetAt p) = d.lineFault p := by
  rw [lineFault]
  rcases hd.offsetAt_cases p with ⟨hline, o, hoff, -⟩ | ⟨hbehind, hoff⟩
  · rw [hoff, if_pos hline]
    rfl
  · rw [hoff, if_neg (Nat.not_le.2 hbehind)]
    rfl

/-- Without a header in front the position is not looked at. -/
theorem Settled.failureOf_inHeader (hd : d.Settled) (p : Position) :
    failureOf (d.inHeader p) = if d.leadingHeader = [] then none else d.lineFault p := by
  by_cases hcells : d.cells = []
  · have hnone : d.leadingHeader = [] := by rw [leadingHeader, hcells]
    rw [inHeader, hd.spans_eq_nil_iff.2 hcells, if_pos hnone]
    rfl
  · obtain ⟨first, rest, tail, hspans, hverbatim⟩ := hd.exists_first hcells
    rw [inHeader, hspans, ← hd.failureOf_offsetAt]
    show failureOf (if first.verbatim = true then _ else _) = _
    simp only [hverbatim]
    split
    · rfl
    · rcases d.offsetAt p with f | o <;> rfl

/-- What a position means in a cell is only missing where its line is. -/
theorem Settled.failureOf_notebookOffsetAt (hd : d.Settled) (p : Position) :
    failureOf (d.notebookOffsetAt p) = d.lineFault p := by
  rw [lineFault]
  rcases hd.offsetAt_cases p with ⟨hline, o, hoff, ho⟩ | ⟨hbehind, hoff⟩
  · rw [if_pos hline]
    by_cases hcells : d.cells = []
    · rw [hd.notebookOffsetAt_of_cells_eq_nil hcells hoff]
      rfl
    · obtain ⟨_, c, _, real, -, hfound⟩ := hd.exists_notebookOffsetAt hcells hoff ho
      rw [hfound]
      rfl
  · rw [notebookOffsetAt_of_offsetAt_eq_error hoff, if_neg (Nat.not_le.2 hbehind)]
    rfl

/-- The end of a range is only looked at if there is a cell. -/
theorem Settled.failureOf_notebookLocationAt (hd : d.Settled) (r : Range) :
    failureOf (d.notebookLocationAt r) =
      (d.lineFault r.start).or (if d.cells = [] then none else d.lineFault r.stop) := by
  rw [notebookLocationAt, ← hd.failureOf_notebookOffsetAt, ← hd.failureOf_notebookOffsetAt]
  rcases hd.offsetAt_cases r.start with ⟨-, x, hx, hxle⟩ | ⟨-, hx⟩
  · by_cases hcells : d.cells = []
    · rw [hd.notebookOffsetAt_of_cells_eq_nil hcells hx, hcells, ok_bind]
      rfl
    · obtain ⟨i, c, _, a, hshows, hfound⟩ := hd.exists_notebookOffsetAt hcells hx hxle
      obtain ⟨first, hfirst⟩ :=
        CellList.exists_cell?_of_mem (List.mem_of_getElem? hshows.cell_eq)
      rw [hfound, if_neg hcells, ok_bind, failureOf_ok, Option.none_or]
      simp only [hfirst]
      rcases d.notebookOffsetAt r.stop with f | ⟨stopUri, b⟩ <;> rfl
  · rw [notebookOffsetAt_of_offsetAt_eq_error hx]
    rfl

/-- A position of a cell fails exactly if the cell does not have its line. -/
theorem failureOf_offsetAt_cell (c : Cell) (p : Position) :
    failureOf (c.offsetAt p) = c.lineFault p := by
  rw [Cell.lineFault]
  split
  · rename_i hline
    obtain ⟨o, ho⟩ := exists_offsetAt hline
    rw [ho]
    rfl
  · rename_i hline
    rw [Cell.offsetAt_eq_error_iff.2 ⟨Nat.not_lt.1 hline, rfl⟩]
    rfl

/-- A URI without a cell is reported as such. -/
theorem lookUp_of_cell?_eq_none {uri : String} (h : d.cells.cell? uri = none) :
    d.lookUp uri = .error (.cellNotFound uri) := by
  rw [lookUp, CellList.indexOf?_eq_none h]

/-- What is asked of a cell by its URI fails if there is no such cell, and else as it does on the
cell. -/
theorem Settled.failureOf_lookUp_bind {α : Type} (hd : d.Settled) {uri : String}
    {ps : List Position} {ask : Cell × List Span → Except Failure α}
    (hask : ∀ s : d.Site uri, failureOf (ask (s.cell, s.spans)) = ps.findSome? s.cell.lineFault) :
    failureOf (d.lookUp uri >>= ask) = d.readFault uri ps := by
  rw [readFault]
  rcases hcell : d.cells.cell? uri with - | c
  · rw [lookUp_of_cell?_eq_none hcell]
    rfl
  · obtain ⟨s, rfl⟩ := hd.exists_site hcell
    rw [s.lookUp_eq]
    exact hask s

/-- The spans of a cell are only missing if the cell is. -/
theorem Settled.failureOf_spansAt (hd : d.Settled) (uri : String) :
    failureOf (d.spansAt uri) = d.readFault uri [] :=
  hd.failureOf_lookUp_bind fun _ ↦ rfl

/-- A position of a cell fails with the cell, or with its line. -/
theorem Settled.failureOf_positionOf (hd : d.Settled) (l : Location) :
    failureOf (d.positionOf l) = d.readFault l.uri [l.range.start] := by
  refine hd.failureOf_lookUp_bind fun s ↦ ?_
  simp only [List.findSome?_cons, ← failureOf_offsetAt_cell]
  rcases s.cell.offsetAt l.range.start with f | a
  · rfl
  · rw [ok_bind, s.toSynthetic_spans]
    rfl

/-- A range of a cell fails with the cell, with the line of its start or with the line of its end,
in this order. -/
theorem Settled.failureOf_rangeOf (hd : d.Settled) (l : Location) :
    failureOf (d.rangeOf l) = d.readFault l.uri [l.range.start, l.range.stop] := by
  refine hd.failureOf_lookUp_bind fun s ↦ ?_
  simp only [List.findSome?_cons, ← failureOf_offsetAt_cell]
  rcases s.cell.offsetAt l.range.start with f | a
  · rfl
  · rw [ok_bind, s.toSynthetic_spans]
    rcases s.cell.offsetAt l.range.stop with f | b
    · rfl
    · simp only [ok_bind, s.toSynthetic_spans]
      rfl

/-- A text is laid out unless its URI has to be looked at, and cannot be read. -/
theorem eq_of_layOut_eq_error {uri : String} {t : Text} {offset real : Int} {f : Failure}
    (h : d.layOut uri t offset real = .error f) : offset = 0 ∧ f = .malformedUri uri := by
  by_cases hstart : offset = 0
  · refine ⟨hstart, eq_of_isInput_eq_error ?_⟩
    rw [layOut, if_pos hstart] at h
    rcases hin : isInput uri with g | input <;> rw [hin] at h <;> cases h
    rfl
  · rw [layOut, if_neg hstart] at h
    cases h

/-- A change only fails where a client could not have made its edits. -/
theorem Settled.eq_of_handle_changed_eq_error (hd : d.Settled) {uri : String} {version : Int}
    {edits : List Edit} {f : Failure}
    (hfail : (d.handle (.changed uri version edits)).2 = .error f) :
    (∃ line count, f = .lineOutOfRange line count) ∨ ∃ r, f = .invertedEdit r uri := by
  obtain ⟨c, hcell, hversion, -⟩ := changeCell_eq_error_iff.1 (Prod.ext rfl hfail)
  obtain ⟨k, e, t, -, -, hmisfits⟩ := (hd.handle_changed_eq_error_iff hcell hversion).1 hfail
  cases hmisfits with
  | start => exact .inl ⟨_, _, rfl⟩
  | stop => exact .inl ⟨_, _, rfl⟩
  | inverted => exact .inr ⟨_, rfl⟩

end Faults

/-! ### All questions -/

/-- What a question answers: it fails with the fault of its arguments if they have one, and only
then, and every entry of a list that it looks up is there. -/
structure Answers {α : Type} (checked : Except Unanswered α) (plain : Except Failure α)
    (fault : Option Failure) : Prop where
  checked_eq : checked = unchecked plain
  failureOf_eq : failureOf plain = fault

/-- Questions to a document, and changes of it, fail as they are specified to. A single position is
asked for as the range from it to itself. -/
structure FailsAsSpecified (d : Document) : Prop where
  lineAt : ∀ n : Int, Answers (Checked.lineAt d n) (d.lineAt n)
    (if 0 ≤ n ∧ n < d.lineCount then none else some (.lineOutOfRange n d.lineCount))
  offsetAt : ∀ p, Answers (Checked.offsetAt d p) (d.offsetAt p) (d.lineFault p)
  positionAt : ∀ o : Int, Checked.positionAt d o = .ok (d.positionAt o)
  inHeader : ∀ p, Answers (Checked.inHeader d p) (d.inHeader p)
    (if d.leadingHeader = [] then none else d.lineFault p)
  notebookOffsetAt : ∀ p, Answers (Checked.notebookOffsetAt d p) (d.notebookOffsetAt p)
    (d.lineFault p)
  notebookLocationAt_position : ∀ p, Answers (Checked.notebookLocationAt d ⟨p, p⟩)
    (d.notebookLocationAt ⟨p, p⟩) (d.lineFault p)
  notebookLocationAt : ∀ r, Answers (Checked.notebookLocationAt d r) (d.notebookLocationAt r)
    ((d.lineFault r.start).or (if d.cells = [] then none else d.lineFault r.stop))
  spansAt : ∀ uri, Answers (Checked.spansAt d uri) (d.spansAt uri) (d.readFault uri [])
  positionOf : ∀ l, Answers (Checked.positionOf d l) (d.positionOf l)
    (d.readFault l.uri [l.range.start])
  rangeOf : ∀ l, Answers (Checked.rangeOf d l) (d.rangeOf l)
    (d.readFault l.uri [l.range.start, l.range.stop])
  layOut : ∀ uri t offset real f, d.layOut uri t offset real = .error f →
    offset = 0 ∧ f = .malformedUri uri
  changed : ∀ uri version edits f, (d.handle (.changed uri version edits)).2 = .error f →
    (∃ line count, f = .lineOutOfRange line count) ∨ ∃ r, f = .invertedEdit r uri
  /-- No answer fails on the way out, as long as the document is not longer than the largest number
  of a position. -/
  onWire : (d.text.length : Int) ≤ Position.bound → d.AnswersOnWire

/-- **Every reachable document fails as specified**, also behind events that failed: at lines that
are not there and at URIs that name no cell. Nothing is looked up that is not there, no offset is
mapped through an empty list of spans, no edit by offsets leaves the text of its cell, and no
position is answered that the wire does not carry, unless the document is too long for it. -/
theorem Reachable.failsAsSpecified {d : Document} (h : Reachable d) : d.FailsAsSpecified := by
  have hd := h.settled
  refine
    { lineAt := fun n ↦ ⟨checked_lineAt d n, failureOf_lineAt d n⟩
      offsetAt := fun p ↦ ⟨checked_offsetAt d p, hd.failureOf_offsetAt p⟩
      positionAt := hd.checked_positionAt
      inHeader := fun p ↦ ⟨hd.checked_inHeader p, hd.failureOf_inHeader p⟩
      notebookOffsetAt := fun p ↦
        ⟨hd.checked_notebookOffsetAt p, hd.failureOf_notebookOffsetAt p⟩
      notebookLocationAt_position := fun p ↦ ⟨hd.checked_notebookLocationAt _, ?_⟩
      notebookLocationAt := fun r ↦
        ⟨hd.checked_notebookLocationAt r, hd.failureOf_notebookLocationAt r⟩
      spansAt := fun uri ↦ ⟨hd.checked_spansAt uri, hd.failureOf_spansAt uri⟩
      positionOf := fun l ↦ ⟨hd.checked_positionOf l, hd.failureOf_positionOf l⟩
      rangeOf := fun l ↦ ⟨hd.checked_rangeOf l, hd.failureOf_rangeOf l⟩
      layOut := fun _ _ _ _ _ ↦ eq_of_layOut_eq_error
      changed := fun _ _ _ _ ↦ hd.eq_of_handle_changed_eq_error
      onWire := hd.answersOnWire }
  -- the end has the same fault as the start
  rw [hd.failureOf_notebookLocationAt]
  rcases d.lineFault p with - | f
  · simp
  · rfl

/-- The document that a change left which failed at its third edit. It has five lines, three of
which belong to the annotated cell. -/
theorem Reachable.failsAsSpecified_behind_failure :
    let d := (withAnnotatedCell.handle
      (.changed "nb-cell:b" 2 (cutToLine ++ [.ranged ⟨⟨1, 1⟩, ⟨0, 0⟩⟩ []]))).1
    Reachable d ∧ failureOf (d.notebookOffsetAt ⟨5, 0⟩) = none ∧
      failureOf (d.notebookOffsetAt ⟨6, 0⟩) = some (.lineOutOfRange 6 5) ∧
      failureOf (d.lineAt 5) = some (.lineOutOfRange 5 5) ∧
      failureOf (d.rangeOf ⟨"nb-cell:b", ⟨⟨2, 7⟩, ⟨3, 0⟩⟩⟩) = some (.lineOutOfRange 3 3) ∧
      failureOf (d.spansAt "nb-cell:c") = some (.cellNotFound "nb-cell:c") := by
  intro d
  have hd : Reachable d := (reachable_headed.run _).handle _
  have hall := hd.failsAsSpecified
  exact ⟨hd, (hall.notebookOffsetAt ⟨5, 0⟩).failureOf_eq.trans (by decide +kernel),
    (hall.notebookOffsetAt ⟨6, 0⟩).failureOf_eq.trans (by decide +kernel),
    (hall.lineAt 5).failureOf_eq.trans (by decide +kernel),
    (hall.rangeOf ⟨"nb-cell:b", ⟨⟨2, 7⟩, ⟨3, 0⟩⟩⟩).failureOf_eq.trans (by decide +kernel),
    (hall.spansAt "nb-cell:c").failureOf_eq.trans (by decide +kernel)⟩

end Document

end CellStitch
