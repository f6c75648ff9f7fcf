import CellStitch.Proofs.Document.Step
/-!
# What a document keeps, and what a rebuild finds

An edit of a cell never rebuilds its document. All the same a reachable document keeps what a
rebuild finds (`Document.asRebuilt_of_reachable`): its spans tile the text in the order of the
cells, only the first cell can have the header in front, and the text and its line starts belong to
these spans.

The place of a list of spans is the number of characters that the lists in front of it show
(`getElem?_of_spansFrom`); everything else is read off there.
-/

namespace CellStitch

namespace Document

open Piece (shown written)

/-! ### Single cells of a layout -/

section Cells

variable {d : Document} {cells : CellList} {offset : Int} {spans : List (List Span)}

/-- **A list of spans is the layout of its cell** at the place where those in front of it stop. -/
theorem getElem?_of_spansFrom (h : d.spansFrom offset cells = .ok spans) {i : Nat} {c : Cell}
    {ss : List Span} (hc : cells[i]? = some c) (hss : spans[i]? = some ss) :
    let place : Int := offset + shownLength (spans.take i)
    ss = Span.place c.uri place 0 (d.piecesAt c place) ∧
      (place = 0 → ∃ b, isInput c.uri = .ok b) := by
  induction cells generalizing offset spans i with
  | nil => simp at hc
  | cons c₀ cells ih =>
    obtain ⟨hin, rest, hrest, rfl⟩ := d.spansFrom_cons_eq_ok_iff.1 h
    cases i with
    | zero =>
      obtain rfl : c₀ = c := by simpa using hc
      obtain rfl : Span.place c₀.uri offset 0 (d.piecesAt c₀ offset) = ss := by simpa using hss
      simpa using hin
    | succ i =>
      rw [List.getElem?_cons_succ] at hc hss
      have hplace := ih hrest hc hss
      rwa [Int.add_assoc, ← Int.natCast_add, ← shownLength_place_cons] at hplace

theorem exists_cell_of_spansFrom (h : d.spansFrom offset cells = .ok spans) {i : Nat}
    {ss : List Span} (hss : spans[i]? = some ss) : ∃ c, cells[i]? = some c := by
  rw [← Option.isSome_iff_exists, isSome_getElem?, ← length_of_spansFrom_eq_ok d h]
  exact (List.getElem?_eq_some_iff.1 hss).1

/-- A cell starts where the cells in front of it stop. -/
theorem startOf_of_spansFrom (h : d.spansFrom offset cells = .ok spans) {i : Nat} {ss : List Span}
    (hss : spans[i]? = some ss) : Span.startOf ss = offset + shownLength (spans.take i) := by
  obtain ⟨c, hc⟩ := exists_cell_of_spansFrom h hss
  rw [(getElem?_of_spansFrom h hc hss).1, Span.startOf_place _ _ _ (d.piecesAt_ne_nil c _)]

/-- A cell stops where the cells up to it stop. -/
theorem stopOf_of_spansFrom (h : d.spansFrom offset cells = .ok spans) {i : Nat} {ss : List Span}
    (hss : spans[i]? = some ss) : Span.stopOf ss = offset + shownLength (spans.take (i + 1)) := by
  obtain ⟨c, hc⟩ := exists_cell_of_spansFrom h hss
  have hshown : shownLength (spans.take (i + 1)) =
      shownLength (spans.take i) + (Span.textOf ss).length := by
    rw [List.take_add_one, hss, shownLength, List.flatMap_append, List.length_append]
    simp [shownLength]
  have hplace := (getElem?_of_spansFrom h hc hss).1
  rw [hshown, hplace, Span.stopOf_place _ _ _ (d.piecesAt_ne_nil c _), Span.textOf_place]
  omega

end Cells

/-! ### What is kept -/

/-- What a document keeps is what a rebuild finds, said once as a whole and once in its parts. -/
structure AsRebuilt (d : Document) : Prop where
  rebuild_eq : d.rebuild = .ok d
  length_spans : d.spans.length = d.cells.length
  /-- The first list of spans starts at 0. -/
  startOf_head : ∀ ss, d.spans.head? = some ss → Span.startOf ss = 0
  /-- Each of the others starts where the one before it stops. -/
  isChain_spans : d.spans.IsChain fun ss ss' ↦ Span.startOf ss' = Span.stopOf ss
  /-- The first cell has the header in front, unless it is an input box. -/
  layOut_head : ∀ c ss, d.cells.head? = some c → d.spans.head? = some ss →
    ∃ input, isInput c.uri = .ok input ∧
      ss = Span.layOut c.uri (c.text ++ ['\n']) 0 0 (if input then [] else d.headerText)
        d.settings.marks
  /-- No other cell has it. -/
  layOut_tail : ∀ i c ss, d.cells[i + 1]? = some c → d.spans[i + 1]? = some ss →
    ss = Span.layOut c.uri (c.text ++ ['\n']) (Span.startOf ss) 0 [] d.settings.marks
  text_eq : d.text = d.spans.flatMap Span.textOf
  /-- Each span has the characters that stand at its place in the text. -/
  slice_eq : ∀ ss ∈ d.spans, ∀ s ∈ ss, 0 ≤ s.start ∧ s.start ≤ s.stop ∧ s.stop ≤ d.text.length ∧
    (d.text.drop s.start.toNat).take (s.stop - s.start).toNat = s.text
  lineStarts_eq : d.lineStarts = d.text.lineStarts
  /-- There is one line start for each line, behind all the lines before it. -/
  lineStarts_getD : d.lineStarts.length = d.text.lines.length ∧
    ∀ l < d.text.lines.length, d.lineStarts.getD l 0 = Text.lengthWithBreaks (d.text.lines.take l)

namespace Settled

variable {d : Document} (hd : d.Settled)
include hd

/-- The header in front of the first cell. -/
theorem layOut_head {c : Cell} {ss : List Span} (hc : d.cells.head? = some c)
    (hss : d.spans.head? = some ss) : ∃ input, isInput c.uri = .ok input ∧
      ss = Span.layOut c.uri (c.text ++ ['\n']) 0 0 (if input then [] else d.headerText)
        d.settings.marks := by
  rw [List.head?_eq_getElem?] at hc hss
  obtain ⟨hplace, hin⟩ := getElem?_of_spansFrom hd.spans_eq hc hss
  have hplace : ss = Span.place c.uri 0 0 (d.piecesAt c 0) := hplace
  obtain ⟨input, hinput⟩ := hin rfl
  refine ⟨input, hinput, ?_⟩
  rw [hplace, Span.layOut, piecesAt, headerAt, hinput]
  cases input <;> rfl

/-- Cells that have others in front of them do not stand at the start. -/
theorem shownLength_take_succ_pos {i : Nat} {ss : List Span} (hss : d.spans[i]? = some ss) :
    0 < shownLength (d.spans.take (i + 1)) := by
  obtain ⟨c, hc⟩ := exists_cell_of_spansFrom hd.spans_eq hss
  have hplace := (getElem?_of_spansFrom hd.spans_eq hc hss).1
  have hlen := d.length_shown_piecesAt_pos c (0 + shownLength (d.spans.take i))
  rw [← Span.textOf_place c.uri (0 + shownLength (d.spans.take i)) 0, ← hplace] at hlen
  rw [List.take_add_one, hss, shownLength, List.flatMap_append, List.length_append]
  simp
  omega

/-- Only the first cell can have the header, so that any other one is laid out without it. -/
theorem layOut_tail {i : Nat} {c : Cell} {ss : List Span} (hc : d.cells[i + 1]? = some c)
    (hss : d.spans[i + 1]? = some ss) :
    ss = Span.layOut c.uri (c.text ++ ['\n']) (Span.startOf ss) 0 [] d.settings.marks := by
  have hstart := startOf_of_spansFrom hd.spans_eq hss
  have hplace := (getElem?_of_spansFrom hd.spans_eq hc hss).1
  obtain ⟨before, hbefore⟩ : ∃ before, d.spans[i]? = some before :=
    ⟨_, List.getElem?_eq_getElem (Nat.lt_of_succ_lt (List.getElem?_eq_some_iff.1 hss).1)⟩
  have hpos := hd.shownLength_take_succ_pos hbefore
  rw [← hstart, piecesAt, headerAt_of_ne_zero d c.uri (by omega)] at hplace
  exact hplace

/-- The text around the spans of a cell, and theirs. -/
theorem text_eq_append {i : Nat} {ss : List Span} (hss : d.spans[i]? = some ss) :
    d.text = (d.spans.take i).flatMap Span.textOf ++ Span.textOf ss ++
      (d.spans.drop (i + 1)).flatMap Span.textOf := by
  obtain ⟨hi, hget⟩ := List.getElem?_eq_some_iff.1 hss
  have hspans : d.spans = d.spans.take i ++ ss :: d.spans.drop (i + 1) := by
    rw [← hget, List.getElem_cons_drop, List.take_append_drop]
  calc d.text = d.spans.flatMap Span.textOf := hd.text_eq
    _ = (d.spans.take i ++ ss :: d.spans.drop (i + 1)).flatMap Span.textOf := by rw [← hspans]
    _ = _ := by rw [List.flatMap_append, List.flatMap_cons, List.append_assoc]

/-- **A span has the characters at its place.** -/
theorem slice_eq {ss : List Span} (hss : ss ∈ d.spans) {s : Span} (hs : s ∈ ss) :
    0 ≤ s.start ∧ s.start ≤ s.stop ∧ s.stop ≤ d.text.length ∧
      (d.text.drop s.start.toNat).take (s.stop - s.start).toNat = s.text := by
  obtain ⟨i, hi⟩ := List.mem_iff_getElem?.1 hss
  obtain ⟨c, hc⟩ := exists_cell_of_spansFrom hd.spans_eq hi
  have hplace := (getElem?_of_spansFrom hd.spans_eq hc hi).1
  have htext := hd.text_eq_append hi
  rw [hplace] at hs
  obtain ⟨front, back, hshown, hstart, hstop⟩ := Span.mem_place _ hs
  rw [hplace, Span.textOf_place, hshown] at htext
  -- the characters of the span stand behind `before`, at which the span starts
  obtain ⟨before, hbefore, hlen⟩ : ∃ before : Text,
      d.text = before ++ (s.text ++ (back ++ (d.spans.drop (i + 1)).flatMap Span.textOf)) ∧
        s.start = before.length := by
    refine ⟨(d.spans.take i).flatMap Span.textOf ++ front, ?_, ?_⟩
    · rw [htext]
      simp only [List.append_assoc]
    · rw [hstart, List.length_append, shownLength]
      omega
  have htotal := congrArg List.length hbefore
  simp only [List.length_append] at htotal
  have hsize : (s.stop - s.start).toNat = s.text.length := by omega
  refine ⟨by omega, by omega, by omega, ?_⟩
  rw [hsize, hlen, Int.toNat_natCast, hbefore, List.drop_left, List.take_left]

/-- Each cell starts where the one in front of it stops. -/
theorem isChain_spans : d.spans.IsChain fun ss ss' ↦ Span.startOf ss' = Span.stopOf ss := by
  refine List.isChain_iff_getElem.2 fun i hi ↦ ?_
  rw [stopOf_of_spansFrom hd.spans_eq (List.getElem?_eq_getElem _),
    startOf_of_spansFrom hd.spans_eq (List.getElem?_eq_getElem _)]

end Settled

/-- **A reachable document keeps what a rebuild finds**, whatever happened to its cells and whether
or not some of it failed. -/
theorem asRebuilt_of_reachable {d : Document} (h : Reachable d) : d.AsRebuilt := by
  have hd := h.settled
  refine ⟨hd.rebuild, d.length_of_spansFrom_eq_ok hd.spans_eq, ?_, hd.isChain_spans, ?_, ?_,
    hd.text_eq, ?_, hd.lineStarts_eq, ?_⟩
  · intro ss hss
    rw [List.head?_eq_getElem?] at hss
    exact startOf_of_spansFrom hd.spans_eq hss
  · intro c ss hc hss
    exact hd.layOut_head hc hss
  · intro i c ss hc hss
    exact hd.layOut_tail hc hss
  · intro ss hss s hs
    exact hd.slice_eq hss hs
  · rw [hd.lineStarts_eq]
    refine ⟨Text.length_lineStarts d.text, ?_⟩
    intro l hl
    exact Text.getD_lineStarts hl

/-- The last event fails at its second edit, behind an edit that makes an annotation appear. -/
theorem asRebuilt_of_reachable_failing :
    let d := headed.run
      [.opened ⟨"nb-cell:a", "python", 1, "x = 1".toList⟩,
        .opened ⟨"nb-cell:b", "python", 1, "%run\r\ny".toList⟩,
        .changed "nb-cell:a" 2 [.ranged ⟨⟨0, 0⟩, ⟨0, 3⟩⟩ "!".toList, .ranged ⟨⟨3, 0⟩, ⟨3, 0⟩⟩ []]]
    Reachable d ∧ d.AsRebuilt ∧
      d.text = "import m\n! 1 # type: ignore\n%run # type: ignore\r\ny\n".toList :=
  ⟨reachable_headed.run _, asRebuilt_of_reachable (reachable_headed.run _), by decide +kernel⟩

end Document

end CellStitch
