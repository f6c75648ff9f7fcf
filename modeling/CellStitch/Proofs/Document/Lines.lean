import CellStitch.Proofs.Document.Mapping
import CellStitch.Proofs.Span.Columns
/-!
# Lines and columns of a document

A position of a cell goes to the document by a shift of its line alone: past the lines of the
header, if that stands in front, and past the lines of the cells above (`Document.baseLine`). Its
column stays, but for the end of a line that has an annotation before its carriage return
(`positionOf_eq_shift`). The document has as many lines as its header and its cells together.

Everything in front of the text of a cell is made of whole lines (`Site.wholeLines_lead`), and their
number is found by an induction over the cells (`count_of_spansFrom`). What follows is one cell,
where `Piece.toShown_ofText` finds the line and the column.
-/

namespace CellStitch

/-- The number of lines of a cell. -/
def Cell.lineCount (c : Cell) : Nat := c.text.count '\n' + 1

/-- The number of lines of all cells together. -/
def CellList.lineCount : CellList → Nat
  | [] => 0
  | c :: cells => c.lineCount + lineCount cells

namespace Document

open Cell (offsetAt_eq_ok_iff)
open Piece (shown toShown)

/-! ### The header -/

/-- The number of lines of the header, if there is a cell in front of which it stands. -/
def headerLines (d : Document) : Nat :=
  match d.cells.head?.map Cell.isInput with
  | some (.ok false) => d.headerText.count '\n'
  | _ => 0

/-- The line at which a cell begins, by its place. -/
def baseLine (d : Document) (i : Nat) : Nat :=
  d.headerLines + CellList.lineCount (d.cells.take i)

theorem headerLines_of_cons {d : Document} {c : Cell} {cells : CellList}
    (h : d.cells = c :: cells) : d.headerLines = (d.headerAt c.uri 0).count '\n' := by
  rw [headerLines, h, headerAt, List.head?_cons, Option.map_some, Cell.isInput]
  rcases isInput c.uri with e | _ | _ <;> rfl

/-- A header is made of whole lines, as a document keeps it. -/
theorem wholeLines_of_keptHeader {v : Value} {s : String} (h : keptHeader v = .ok (.text s)) :
    Text.WholeLines s.toList := by
  unfold keptHeader at h
  split at h
  · split at h
    · -- a text that is set is ended by a break if it is not yet
      rename_i given _
      obtain rfl := Value.text.inj (Except.ok.inj h)
      by_cases hbreak : Text.endsWith given.toList '\n' = true
      · have hlast : given.toList.getLast? = some '\n' := by simpa [Text.endsWith] using hbreak
        rw [if_pos hbreak]
        exact .inr ⟨_, (List.dropLast_append_getLast? _ hlast).symm⟩
      · rw [if_neg hbreak, String.toList_ofList]
        exact .inr ⟨_, rfl⟩
    · cases h
  · -- of the texts only the empty one is not set
    rename_i hunset
    obtain rfl := Except.ok.inj h
    exact .inl (by simpa [Value.isSet] using hunset)

/-- **The header of a new document** is the one of its settings, ended by a line break. -/
theorem headerText_of_new {uri : String} {settings : Settings} {h : String}
    (hheader : settings.header uri = .text h) (hd : Document.new uri settings = .ok d) :
    d.headerText = Rendering.header h.toList := by
  obtain ⟨header, hkept, hd⟩ := bind_eq_ok_iff.1 hd
  obtain rfl := Except.ok.inj hd
  have hset : (Value.text h).isSet = !h.toList.isEmpty := by
    rw [Value.isSet, Bool.not_inj_iff, Bool.eq_iff_iff, String.isEmpty_iff, List.isEmpty_iff,
      String.toList_eq_nil_iff]
  rw [hheader, keptHeader, hset] at hkept
  rw [Rendering.header]
  by_cases hempty : h.toList.isEmpty = true
  · rw [hempty] at hkept ⊢
    obtain rfl := Except.ok.inj hkept
    rfl
  · rw [Bool.not_eq_true] at hempty
    rw [hempty] at hkept ⊢
    obtain rfl := Except.ok.inj hkept
    by_cases hbreak : Text.endsWith h.toList '\n' = true <;> simp [headerText, hbreak]

theorem wholeLines_headerText_of_new {uri : String} {settings : Settings} {d : Document}
    (h : Document.new uri settings = .ok d) : d.headerText.WholeLines := by
  obtain ⟨header, hkept, h⟩ := bind_eq_ok_iff.1 h
  obtain rfl := Except.ok.inj h
  unfold headerText
  split
  · rename_i s hs
    exact wholeLines_of_keptHeader (hkept.trans (congrArg Except.ok hs))
  · exact .inl rfl

/-- The header of a reachable document is made of whole lines, as it is read only once. -/
theorem Reachable.wholeLines_headerText {d : Document} (h : Reachable d) :
    d.headerText.WholeLines := by
  induction h with
  | new h => exact wholeLines_headerText_of_new h
  | handle h e ih =>
    rw [headerText, (h.settled.handle e).sameSetup.header_eq]
    exact ih

/-! ### The lines in front of a cell -/

theorem count_shown_piecesAt (d : Document) (c : Cell) (offset : Int) :
    (shown (d.piecesAt c offset)).count '\n' =
      (d.headerAt c.uri offset).count '\n' + c.lineCount := by
  rw [shown_piecesAt, List.count_append, List.count_append, Rendering.count_text,
    List.count_singleton_self, Cell.lineCount]

/-- Cells show a line for each of theirs, and those of the header in front. -/
theorem count_of_spansFrom {d : Document} {c : Cell} {cells : CellList} {offset : Int}
    {spans : List (List Span)} (h : d.spansFrom offset (c :: cells) = .ok spans)
    (hoffset : 0 ≤ offset) : (spans.flatMap Span.textOf).count '\n' =
      (d.headerAt c.uri offset).count '\n' + CellList.lineCount (c :: cells) := by
  induction cells generalizing c offset spans with
  | nil =>
    obtain ⟨-, rest, hrest, rfl⟩ := d.spansFrom_cons_eq_ok_iff.1 h
    cases hrest
    simp [count_shown_piecesAt, CellList.lineCount]
  | cons c' cells ih =>
    obtain ⟨-, rest, hrest, rfl⟩ := d.spansFrom_cons_eq_ok_iff.1 h
    -- the next cell stands behind the start of the document, where no header comes
    have hpos := d.length_shown_piecesAt_pos c offset
    have hnone : d.headerAt c'.uri (offset + (shown (d.piecesAt c offset)).length) = [] :=
      d.headerAt_of_ne_zero c'.uri (by omega)
    rw [List.flatMap_cons, List.count_append, Span.textOf_place, count_shown_piecesAt,
      ih hrest (by omega), hnone, List.count_nil]
    simp only [CellList.lineCount]
    omega

namespace Site

variable {d : Document} {uri : String} (s : d.Site uri)

/-- What stands in front of the text of the cell: the cells above, or the header. -/
def lead : Text := s.front ++ d.headerAt s.cell.uri s.offset

theorem wholeLines_lead (h : Reachable d) : s.lead.WholeLines := by
  have hheader : (d.headerAt s.cell.uri s.offset).WholeLines := by
    unfold headerAt
    split
    · split
      · exact h.wholeLines_headerText
      · exact .inl rfl
    · exact .inl rfl
  have hfront : s.front.WholeLines :=
    (ends_of_spansFrom s.spansFrom_before).imp And.right And.right
  exact hfront.append hheader

/-- The lines in front of a cell are those of the header and of the cells before it. -/
theorem count_lead : s.lead.count '\n' = d.baseLine s.before.length := by
  have hcells := s.firstAt.cells_eq
  have htake : d.cells.take s.before.length = s.before := by rw [hcells, List.take_left]
  have hbefore := s.spansFrom_before
  rw [lead, baseLine, htake, List.count_append]
  rcases hsplit : s.before with - | ⟨c, before⟩
  · -- the first cell may have the header in front
    rw [hsplit] at hbefore hcells
    have hnone : s.spansBefore = [] := (Except.ok.inj hbefore).symm
    rw [headerLines_of_cons hcells, front, offset, hnone]
    simp [CellList.lineCount]
  · rw [hsplit] at hbefore hcells
    have hcount : s.front.count '\n' = _ := count_of_spansFrom hbefore (Int.le_refl 0)
    have hoffset : (s.offset : Int) ≠ 0 := by
      intro hzero
      have hfront : s.front = [] := List.length_eq_zero_iff.1 (Int.ofNat.inj hzero)
      rw [hfront, List.count_nil, CellList.lineCount, Cell.lineCount] at hcount
      omega
    rw [headerLines_of_cons hcells, hcount, headerAt_of_ne_zero d _ hoffset, List.count_nil,
      Nat.add_zero]

/-- The text of a document, with the rendered text of the cell in the middle. -/
theorem text_eq_lead (hd : d.Settled) : d.text =
    s.lead ++ (Rendering.text d.settings.marks s.cell.text ++ ('\n' :: s.back)) := by
  rw [s.text_eq hd, pieces, shown_piecesAt, lead]
  simp only [List.append_assoc, List.singleton_append]

/-- A character of a line of the cell, in the document. -/
theorem offset_add_toShown {l : Nat} {line : Text} (h : s.cell.text.lines[l]? = some line)
    {k : Nat} (hk : k ≤ line.length) :
    s.offset + toShown s.pieces (Text.lengthWithBreaks (s.cell.text.lines.take l) + k) =
      s.lead.length + (Text.lengthWithBreaks
        ((Rendering.text d.settings.marks s.cell.text).lines.take l) +
          shownColumn d.settings.marks line k) := by
  have hlt : l < s.cell.text.lines.length := (List.getElem?_eq_some_iff.1 h).1
  -- the break that ends the cell begins a further line, which stands behind all of its own
  have hbreak : (s.cell.text ++ ['\n']).lines = s.cell.text.lines ++ [[]] :=
    Text.lines_append_break s.cell.text []
  have hline : (s.cell.text ++ ['\n']).lines[l]? = some line := by
    rw [hbreak, List.getElem?_append_left hlt, h]
  have hshown := Piece.toShown_ofText d.settings.marks hline hk
  rw [Rendering.lines_text, hbreak, List.map_append,
    List.take_append_of_le_length (Nat.le_of_lt hlt),
    List.take_append_of_le_length (by simpa using Nat.le_of_lt hlt),
    ← Rendering.lines_text] at hshown
  rw [pieces, piecesAt, Piece.toShown_withHeader, hshown, lead, List.length_append, s.length_front,
    Nat.add_assoc]

/-- A character of a line of the rendered cell, as a position of the document. -/
theorem positionAt_lead (h : Reachable d) {l : Nat} {line : Text}
    (hline : (Rendering.text d.settings.marks s.cell.text).lines[l]? = some line) {k : Nat}
    (hk : k ≤ line.length) :
    d.positionAt (s.lead.length + (Text.lengthWithBreaks
      ((Rendering.text d.settings.marks s.cell.text).lines.take l) + k) : Nat) =
        ⟨s.lead.count '\n' + l, k⟩ := by
  obtain ⟨hle, hpos⟩ := Text.positionAt_of_line hline hk
  have htext := s.text_eq_lead h.settled
  set rendered := Rendering.text d.settings.marks s.cell.text
  set o := Text.lengthWithBreaks (rendered.lines.take l) + k
  have hbehind : o ≤ (rendered ++ '\n' :: s.back).length := by
    rw [List.length_append]
    exact Nat.le_add_right_of_le hle
  have htotal : s.lead.length + o ≤ d.text.length := by
    rw [htext, List.length_append]
    exact Nat.add_le_add_left hbehind _
  rw [h.settled.positionAt_eq htotal, htext, Text.positionAt_append (s.wholeLines_lead h) hbehind,
    Text.positionAt_append_of_le _ hle, hpos]

end Site

/-! ### Positions -/

/-- **A position of a cell goes to the document by a shift of its line**, and keeps its column, but
for the end of an annotated line that has a carriage return there. There are as many lines as the
header and the cells have together. -/
theorem positionOf_eq_shift {d : Document} (h : Reachable d) :
    (∀ uri i c (r : Range) (line : Text), d.cells.indexOf? uri = some i → d.cells[i]? = some c →
      c.text.lines[r.start.line]? = some line → r.start.character ≤ line.length →
      d.positionOf ⟨uri, r⟩ = .ok ⟨d.baseLine i + r.start.line,
        shownColumn d.settings.marks line r.start.character⟩) ∧
      d.lineCount = d.baseLine d.cells.length ∧ (d.cells = [] → d.lineCount = 0) := by
  have hd := h.settled
  have hcount : d.lineCount = d.text.count '\n' := by
    rw [hd.lineCount_eq, Text.length_lines, Nat.add_sub_cancel]
  refine ⟨?_, ?_, ?_⟩
  · intro uri i c r line hi hc hline hk
    obtain ⟨before, c', after, hfirst, rfl, hc'⟩ := CellList.exists_firstAt_of_indexOf? hi
    obtain rfl := Option.some.inj (hc.symm.trans hc')
    obtain ⟨s, rfl, rfl, -⟩ := hd.exists_site_of_firstAt hfirst
    have hoffset : s.cell.offsetAt r.start = .ok _ :=
      offsetAt_eq_ok_iff.2 (Text.offsetAt?_of_line hline hk)
    have hrendered : (Rendering.text d.settings.marks s.cell.text).lines[r.start.line]? =
        some (Rendering.line d.settings.marks line) := by
      rw [Rendering.lines_text, List.getElem?_map, hline, Option.map_some]
    rw [s.positionOf_eq hoffset, s.offset_add_toShown hline hk,
      s.positionAt_lead h hrendered (shownColumn_le hk), s.count_lead]
  · have hspans := hd.spans_eq
    rw [hcount, hd.text_eq, baseLine, List.take_length]
    rcases hcells : d.cells with - | ⟨c, cells⟩
    · rw [hcells] at hspans
      rw [← Except.ok.inj hspans, headerLines, hcells]
      rfl
    · rw [hcells] at hspans
      rw [headerLines_of_cons hcells, count_of_spansFrom hspans (Int.le_refl 0)]
  · intro hcells
    rw [hcount, hd.text_eq_nil_iff.2 hcells, List.count_nil]

/-- The last line of the second cell has an annotation before its carriage return: what stands in
front of that keeps its column, and the end is found behind. -/
theorem positionOf_eq_shift_annotated :
    let d := headed.run
      [.opened ⟨"nb-cell:a", "python", 1, "x = 1".toList⟩,
        .opened ⟨"nb-cell:b", "python", 1, "!ls\n%run\r".toList⟩]
    Reachable d ∧ d.positionOf ⟨"nb-cell:b", ⟨⟨0, 3⟩, ⟨0, 3⟩⟩⟩ = .ok ⟨2, 3⟩ ∧
      d.positionOf ⟨"nb-cell:b", ⟨⟨1, 4⟩, ⟨1, 4⟩⟩⟩ = .ok ⟨3, 4⟩ ∧
      d.positionOf ⟨"nb-cell:b", ⟨⟨1, 5⟩, ⟨1, 5⟩⟩⟩ = .ok ⟨3, 20⟩ ∧ d.lineCount = 4 := by
  intro d
  have hd : Reachable d := reachable_headed.run _
  obtain ⟨hposition, hlineCount, -⟩ := positionOf_eq_shift hd
  have hplace : d.cells.indexOf? "nb-cell:b" = some 1 := by decide +kernel
  have hcell : d.cells[1]? = some ⟨"nb-cell:b", "python", 1, "!ls\n%run\r".toList⟩ := by
    decide +kernel
  have hbase : d.baseLine 1 = 2 := by decide +kernel
  have hall : d.baseLine d.cells.length = 4 := by decide +kernel
  have hmarks : d.settings.marks = true := by decide +kernel
  rw [hall] at hlineCount
  refine ⟨hd, ?_, ?_, ?_, hlineCount⟩
  · rw [hposition _ _ _ _ "!ls".toList hplace hcell rfl (by decide), hbase, hmarks]
    rfl
  · rw [hposition _ _ _ _ "%run\r".toList hplace hcell rfl (by decide), hbase, hmarks]
    rfl
  · rw [hposition _ _ _ _ "%run\r".toList hplace hcell rfl (by decide), hbase, hmarks]
    rfl

end Document

end CellStitch
