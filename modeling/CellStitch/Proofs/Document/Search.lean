import CellStitch.Proofs.Document.Mapping
/-!
# What a document finds by search

A document keeps its line starts and the spans of its cells, and looks an offset up in both. What it
finds is what a search by halves finds, since both lists increase: positions
(`Reachable.amongStarts?_searchedStarts`) and cells (`Reachable.cellIndexAt_eq_bisect`).

That cells start one behind the other is an induction over the cells as they are laid out
(`pairwise_startOf_of_spansFrom`).
-/

namespace CellStitch.Document

variable {d : Document}

/-- Cells start one behind the other. -/
theorem pairwise_startOf_of_spansFrom {cells : CellList} {offset : Int} {spans : List (List Span)}
    (h : d.spansFrom offset cells = .ok spans) : (spans.map Span.startOf).Pairwise (· ≤ ·) := by
  induction cells generalizing offset spans with
  | nil =>
    cases h
    exact List.Pairwise.nil
  | cons c cells ih =>
    obtain ⟨-, rest, hrest, rfl⟩ := d.spansFrom_cons_eq_ok_iff.1 h
    rw [List.map_cons, List.pairwise_cons]
    refine ⟨fun start hstart ↦ ?_, ih hrest⟩
    obtain ⟨ss, hss, rfl⟩ := List.mem_map.1 hstart
    have hle := (startOf_mem_of_spansFrom hrest hss).1
    rw [Span.startOf_place _ _ _ (d.piecesAt_ne_nil c offset)]
    omega

/-- **The position of an offset is found by halves**, among line starts that are found one behind
the other, if the wire carries it. -/
theorem Reachable.amongStarts?_searchedStarts (h : Reachable d) (o : Int) :
    Position.amongStarts? d.text.searchedStarts (Text.clamp d.text.length o) =
      (d.positionAt o).onWire? := by
  rw [Text.searchedStarts_eq, Text.amongStarts?_lineStarts (Text.clamp_le _ o),
    ← Text.positionAt_clamp, positionAt, h.settled.lineStarts_eq, Text.ofLineStarts_clamp]

/-- **The cell of an offset is found by halves** among the starts of the cells. -/
theorem Reachable.cellIndexAt_eq_bisect (h : Reachable d) (o : Nat) :
    d.cellIndexAt o =
      min (bisect (d.spans.map Span.startOf) (o : Int) 0 d.spans.length - 1)
        (d.spans.length - 1) := by
  have hstarts := pairwise_startOf_of_spansFrom h.settled.spans_eq
  have hcount := bisect_zero_length hstarts (o : Int)
  rw [List.length_map] at hcount
  rw [cellIndexAt, hcount]

end CellStitch.Document
