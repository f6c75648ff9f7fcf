import CellStitch.Proofs.Document.Step
/-!
# From cells to their document and back

A location in a cell goes to the document and comes back to where it was, up to characters behind
the ends of their lines (`notebookLocationAt_rangeOf`).

The way back first looks for the cell, by counting the cells that start at or before the offset
(`Site.cellIndexAt_eq`), and then goes through its spans. The two scans of the spans agree because a
character of the cell never lands behind what its cell shows (`Piece.toShown_lt`): at the place that
two cells share, the one behind it would be found.
-/

namespace CellStitch

namespace Document

open Cell (exists_offsetAt positionAt_of_offsetAt)
open Piece (shown written toShown toWritten)

/-- Each cell starts behind the start of those laid out with it, and before their end. -/
theorem startOf_mem_of_spansFrom {d : Document} {cells : CellList} {offset : Int}
    {spans : List (List Span)} (h : d.spansFrom offset cells = .ok spans) {ss : List Span}
    (hss : ss ∈ spans) :
    offset ≤ Span.startOf ss ∧ Span.startOf ss < offset + shownLength spans := by
  induction cells generalizing offset spans with
  | nil =>
    cases h
    exact absurd hss List.not_mem_nil
  | cons c cells ih =>
    obtain ⟨-, rest, hrest, rfl⟩ := d.spansFrom_cons_eq_ok_iff.1 h
    have hpos := d.length_shown_piecesAt_pos c offset
    rw [shownLength_place_cons]
    rcases List.mem_cons.1 hss with rfl | hss
    · rw [Span.startOf_place _ _ _ (d.piecesAt_ne_nil c offset)]
      omega
    · obtain ⟨hle, hlt⟩ := ih hrest hss
      omega

namespace Site

variable {d : Document} {uri : String} (s : d.Site uri)

/-- The cell is the last one that starts at or before an offset. -/
theorem cellIndexAt_eq_of_lt {o : Nat} (hle : s.offset ≤ o)
    (hafter : ∀ ss ∈ s.spansAfter, (o : Int) < Span.startOf ss) :
    d.cellIndexAt o = s.before.length := by
  have hbefore : ∀ a ∈ s.spansBefore.map Span.startOf ++ [(s.offset : Int)], a ≤ (o : Int) := by
    intro a ha
    rcases List.mem_append.1 ha with ha | ha
    · obtain ⟨ss, hss, rfl⟩ := List.mem_map.1 ha
      have hstart := (startOf_mem_of_spansFrom s.spansFrom_before hss).2
      show Span.startOf ss ≤ o
      rw [offset] at hle
      omega
    · obtain rfl := List.mem_singleton.1 ha
      exact Int.ofNat_le.2 hle
  have hstarts : d.spans.map Span.startOf =
      (s.spansBefore.map Span.startOf ++ [(s.offset : Int)]) ++ s.spansAfter.map Span.startOf := by
    rw [s.spans_eq', List.map_append, List.map_cons, s.startOf_spans, List.append_assoc,
      List.singleton_append]
  have hlength : d.spans.length = s.before.length + 1 + s.spansAfter.length := by
    rw [s.spans_eq', List.length_append, List.length_cons, s.length_spansBefore]
    omega
  rw [cellIndexAt, hstarts, countUpTo_append hbefore (by simpa using hafter), hlength,
    List.length_append, List.length_map, List.length_singleton, s.length_spansBefore]
  omega

/-- **An offset in what a cell shows finds the cell.** -/
theorem cellIndexAt_eq {o : Nat} (hle : s.offset ≤ o)
    (hlt : o < s.offset + (shown s.pieces).length) : d.cellIndexAt o = s.before.length := by
  refine s.cellIndexAt_eq_of_lt hle ?_
  intro ss hss
  have hstart := (startOf_mem_of_spansFrom s.spansFrom_after hss).1
  rw [pieces, offset] at hlt
  omega

/-- A position whose offset finds the cell goes back through the pieces of the cell. -/
theorem notebookOffsetAt_eq {p : Position} {o : Nat} (hp : d.offsetAt p = .ok o)
    (hle : s.offset ≤ o) (hindex : d.cellIndexAt o = s.before.length) :
    d.notebookOffsetAt p =
      .ok (uri, (min (toWritten s.pieces (o - s.offset)) s.cell.text.length : Nat)) := by
  have hreal : Span.toReal s.spans o = .ok (toWritten s.pieces (o - s.offset) : Int) := by
    have h := Span.toReal_place s.cell.uri s.pieces_ne_nil s.offset 0 (o - s.offset)
    rw [← Int.natCast_add, Nat.add_sub_cancel' hle, Int.zero_add] at h
    exact h
  have hmin : min (toWritten s.pieces (o - s.offset) : Int) s.cell.text.length =
      (min (toWritten s.pieces (o - s.offset)) s.cell.text.length : Nat) := by omega
  rw [notebookOffsetAt, hp, ok_bind, hindex, s.getElem?_zip]
  show (Span.toReal s.spans o >>= fun real ↦ _) = _
  rw [hreal, ok_bind, s.uri_cell, hmin]
  rfl

/-- **An offset of the cell goes to the document and back.** -/
theorem notebookOffsetAt_positionAt (hd : d.Settled) {r : Nat} (hr : r ≤ s.cell.text.length) :
    d.notebookOffsetAt (d.positionAt (s.offset + toShown s.pieces r : Nat)) =
      .ok (uri, (r : Int)) := by
  have hwritten : (written s.pieces).length = s.cell.text.length + 1 := by
    rw [s.written_pieces, List.length_append, List.length_singleton]
  have hlt : toShown s.pieces r < (shown s.pieces).length := Piece.toShown_lt (by omega)
  have hle : s.offset + toShown s.pieces r ≤ d.text.length := by
    rw [s.text_eq hd, List.length_append, List.length_append, s.length_front]
    omega
  have hoffset : d.offsetAt (d.positionAt (s.offset + toShown s.pieces r : Nat)) =
      .ok (s.offset + toShown s.pieces r) := by
    rw [hd.positionAt_eq hle]
    exact hd.offsetAt_eq (Text.offsetAt?_positionAt hle)
  have hindex := s.cellIndexAt_eq (Nat.le_add_right s.offset _) (Nat.add_lt_add_left hlt s.offset)
  rw [s.notebookOffsetAt_eq hoffset (Nat.le_add_right _ _) hindex, Nat.add_sub_cancel_left,
    Piece.toWritten_toShown (by omega), Nat.min_eq_left hr]

theorem positionOf_eq {r : Range} {a : Nat} (ha : s.cell.offsetAt r.start = .ok a) :
    d.positionOf ⟨uri, r⟩ = .ok (d.positionAt (s.offset + toShown s.pieces a : Nat)) := by
  rw [positionOf, s.lookUp_eq, ok_bind]
  show (s.cell.offsetAt r.start >>= fun o ↦ _) = _
  rw [ha, ok_bind, s.toSynthetic_spans, ok_bind]
  rfl

theorem rangeOf_eq {r : Range} {a b : Nat} (ha : s.cell.offsetAt r.start = .ok a)
    (hb : s.cell.offsetAt r.stop = .ok b) (hab : a ≤ b) :
    d.rangeOf ⟨uri, r⟩ = .ok ⟨d.positionAt (s.offset + toShown s.pieces a : Nat),
      d.positionAt (s.offset + toShown s.pieces b : Nat)⟩ := by
  have hmono : s.offset + toShown s.pieces a ≤ s.offset + toShown s.pieces b :=
    Nat.add_le_add_left (Piece.toShown_mono s.pieces hab) s.offset
  rw [rangeOf, s.lookUp_eq, ok_bind]
  show (s.cell.offsetAt r.start >>= fun o ↦ _) = _
  rw [ha, ok_bind, s.toSynthetic_spans, ok_bind, hb, ok_bind, s.toSynthetic_spans, ok_bind,
    Int.max_eq_right (Int.ofNat_le.2 hmono)]
  rfl

/-- A stretch of what the cell shows goes back to the stretch of the cell. -/
theorem notebookLocationAt_positionAt (hd : d.Settled) {a b : Nat} (hab : a ≤ b)
    (hb : b ≤ s.cell.text.length) :
    d.notebookLocationAt ⟨d.positionAt (s.offset + toShown s.pieces a : Nat),
      d.positionAt (s.offset + toShown s.pieces b : Nat)⟩ =
        .ok ⟨uri, ⟨s.cell.positionAt a, s.cell.positionAt b⟩⟩ := by
  rw [notebookLocationAt, s.notebookOffsetAt_positionAt hd (Nat.le_trans hab hb), ok_bind]
  simp only [s.firstAt.cell?]
  rw [s.notebookOffsetAt_positionAt hd hb, ok_bind]
  simp only [if_true]
  rw [Int.max_eq_left (Int.ofNat_le.2 hab)]
  rfl

end Site

/-- **A location in a cell goes to the document and back to itself**, with each character cut to its
line. The start alone goes back to the empty range there. -/
theorem notebookLocationAt_rangeOf {d : Document} (h : Reachable d) {uri : String} {c : Cell}
    (hc : d.cells.cell? uri = some c) {r : Range} (hstart : r.start.line < c.text.lines.length)
    (hstop : r.stop.line < c.text.lines.length) :
    ∃ a b, c.offsetAt r.start = .ok a ∧ c.offsetAt r.stop = .ok b ∧ (a ≤ b →
      (d.rangeOf ⟨uri, r⟩ >>= d.notebookLocationAt) =
        .ok ⟨uri, ⟨c.text.onLine r.start, c.text.onLine r.stop⟩⟩ ∧
      (d.positionOf ⟨uri, r⟩ >>= fun p ↦ d.notebookLocationAt ⟨p, p⟩) =
        .ok ⟨uri, ⟨c.text.onLine r.start, c.text.onLine r.start⟩⟩) := by
  obtain ⟨a, ha⟩ := exists_offsetAt hstart
  obtain ⟨b, hb⟩ := exists_offsetAt hstop
  refine ⟨a, b, ha, hb, ?_⟩
  intro hab
  obtain ⟨s, rfl⟩ := h.settled.exists_site hc
  obtain ⟨hale, hapos⟩ := positionAt_of_offsetAt ha
  obtain ⟨hble, hbpos⟩ := positionAt_of_offsetAt hb
  refine ⟨?_, ?_⟩
  · rw [s.rangeOf_eq ha hb hab, ok_bind, s.notebookLocationAt_positionAt h.settled hab hble, hapos,
      hbpos]
  · rw [s.positionOf_eq ha, ok_bind,
      s.notebookLocationAt_positionAt h.settled (Nat.le_refl a) hale, hapos]

/-- The range runs from the end of an annotated line, where the annotation begins, to the carriage
return of the next one. -/
theorem notebookLocationAt_rangeOf_annotated :
    let d := headed.run
      [.opened ⟨"nb-cell:a", "python", 1, "x = 1".toList⟩,
        .opened ⟨"nb-cell:b", "python", 1, "!ls\n%run\r\n".toList⟩]
    let c : Cell := ⟨"nb-cell:b", "python", 1, "!ls\n%run\r\n".toList⟩
    let r : Range := ⟨⟨0, 9⟩, ⟨1, 9⟩⟩
    Reachable d ∧ d.cells.cell? "nb-cell:b" = some c ∧
      (d.rangeOf ⟨"nb-cell:b", r⟩ >>= d.notebookLocationAt) =
        .ok ⟨"nb-cell:b", ⟨⟨0, 3⟩, ⟨1, 5⟩⟩⟩ := by
  intro d c r
  have hd : Reachable d := reachable_headed.run _
  have hc : d.cells.cell? "nb-cell:b" = some c := by decide +kernel
  obtain ⟨a, b, ha, hb, hall⟩ := notebookLocationAt_rangeOf hd hc
    (by decide : r.start.line < c.text.lines.length) (by decide : r.stop.line < c.text.lines.length)
  have ha' : c.offsetAt r.start = .ok 3 := rfl
  have hb' : c.offsetAt r.stop = .ok 9 := rfl
  obtain rfl : 3 = a := Except.ok.inj (ha'.symm.trans ha)
  obtain rfl : 9 = b := Except.ok.inj (hb'.symm.trans hb)
  exact ⟨hd, hc, (hall (by decide)).1⟩

end Document

end CellStitch
