import CellStitch.Proofs.Document.Settled
import CellStitch.Proofs.Text.Search
/-!
# Answers that the wire carries

Numbers of a position are bounded on the wire, and a document is as long as its cells make it. As
long as a document is not longer than the largest number, every position it answers has one
(`Document.Settled.answersOnWire`): its own positions are positions of its text, and those of a cell
are positions of a text that is not longer, since all of it stands in the document
(`Document.length_le_of_spansFrom`).
-/

namespace CellStitch

/-- The wire carries a position as it is. -/
def Position.IsOnWire (p : Position) : Prop := p.onWire? = some p

/-- The wire carries both ends of a range. -/
def Range.IsOnWire (r : Range) : Prop := r.start.IsOnWire ∧ r.stop.IsOnWire

theorem Position.isOnWire_of_le {p : Position} (hline : (p.line : Int) ≤ bound)
    (hcharacter : (p.character : Int) ≤ bound) : p.IsOnWire := by
  rw [IsOnWire, onWire?, ofInts?, if_pos (by omega)]
  rfl

/-- A cell that is not longer than the largest number has positions that the wire carries. -/
theorem Cell.isOnWire_positionAt {c : Cell} (h : (c.text.length : Int) ≤ Position.bound) (o : Int) :
    (c.positionAt o).IsOnWire :=
  Text.onWire?_positionAt h o

namespace Document

variable {d : Document}

/-- The wire carries every position and every range that a document answers. -/
structure AnswersOnWire (d : Document) : Prop where
  lineAt : ∀ n l, d.lineAt n = .ok l → l.range.IsOnWire
  positionAt : ∀ o : Int, (d.positionAt o).IsOnWire
  notebookLocationAt : ∀ r l, d.notebookLocationAt r = .ok l → l.range.IsOnWire
  positionOf : ∀ l p, d.positionOf l = .ok p → p.IsOnWire
  rangeOf : ∀ l r, d.rangeOf l = .ok r → r.IsOnWire

/-- No cell is longer than what all cells show. -/
theorem length_le_of_spansFrom {cells : CellList} {offset : Int} {spans : List (List Span)}
    (h : d.spansFrom offset cells = .ok spans) {c : Cell} (hc : c ∈ cells) :
    c.text.length ≤ shownLength spans := by
  induction cells generalizing offset spans with
  | nil => cases hc
  | cons first cells ih =>
    obtain ⟨-, rest, hrest, rfl⟩ := d.spansFrom_cons_eq_ok_iff.1 h
    rw [shownLength_place_cons]
    rcases List.mem_cons.1 hc with rfl | hc
    · have hle := Piece.length_written_le (d.piecesAt c offset)
      rw [written_piecesAt, List.length_append] at hle
      omega
    · have hle := ih hrest hc
      omega

namespace Settled

variable (hd : d.Settled)
include hd

/-- The whole text of a cell stands in the document. -/
theorem length_text_le {c : Cell} (hc : c ∈ d.cells) : c.text.length ≤ d.text.length := by
  rw [hd.text_eq]
  exact length_le_of_spansFrom hd.spans_eq hc

/-- The positions of a document are positions of its text. -/
theorem isOnWire_positionAt (hlength : (d.text.length : Int) ≤ Position.bound) (o : Int) :
    (d.positionAt o).IsOnWire := by
  have hpos : d.positionAt o = d.text.positionAt o := by
    rw [positionAt, hd.lineStarts_eq, Text.ofLineStarts_clamp]
  rw [hpos]
  exact Text.onWire?_positionAt hlength o

/-- A line has as many characters in front of it as it has lines in front of it, or more. -/
theorem lineCount_le : d.lineCount ≤ d.text.length := by
  rw [hd.lineCount_eq, Text.length_lines, Nat.add_sub_cancel]
  exact List.count_le_length

/-- A line is not longer than the document, and there are not more lines than characters. -/
theorem isOnWire_lineAt (hlength : (d.text.length : Int) ≤ Position.bound) {n : Int} {l : Line}
    (h : d.lineAt n = .ok l) : l.range.IsOnWire := by
  unfold lineAt at h
  split at h
  case isFalse => cases h
  case isTrue hin =>
    have hcount := hd.lineCount_le
    have hwidth : ((d.text.drop (d.lineStart n.toNat)).take (d.lineLength n.toNat)).length ≤
        d.text.length := Nat.le_trans (List.length_take_le' _ _) (List.drop_sublist _ _).length_le
    have hline : ((n.toNat : Nat) : Int) ≤ Position.bound := by omega
    obtain rfl := Except.ok.inj h
    exact ⟨Position.isOnWire_of_le hline (Int.natCast_nonneg 2147483647),
      Position.isOnWire_of_le hline (Int.le_trans (Int.ofNat_le.2 hwidth) hlength)⟩

/-- **A document that is not longer than the largest number** answers with positions that the wire
carries. -/
theorem answersOnWire (hlength : (d.text.length : Int) ≤ Position.bound) : d.AnswersOnWire := by
  have hown := hd.isOnWire_positionAt hlength
  refine ⟨fun n l ↦ hd.isOnWire_lineAt hlength, hown, fun r l h ↦ ?_, fun l p h ↦ ?_,
    fun l r h ↦ ?_⟩
  · obtain ⟨⟨uri, start⟩, -, h⟩ := bind_eq_ok_iff.1 h
    dsimp only at h
    split at h
    case h_1 =>
      obtain rfl := Except.ok.inj h
      exact ⟨rfl, rfl⟩
    case h_2 c hc =>
      obtain ⟨⟨stopUri, stop⟩, -, h⟩ := bind_eq_ok_iff.1 h
      obtain rfl := Except.ok.inj h
      -- the cell is no longer than the document that holds a copy of each of its characters
      have hle := hd.length_text_le (List.mem_of_find?_eq_some hc)
      have hcell : (c.text.length : Int) ≤ Position.bound :=
        Int.le_trans (Int.ofNat_le.2 hle) hlength
      exact ⟨Cell.isOnWire_positionAt hcell _, Cell.isOnWire_positionAt hcell _⟩
  · obtain ⟨⟨c, spans⟩, -, h⟩ := bind_eq_ok_iff.1 h
    obtain ⟨real, -, h⟩ := bind_eq_ok_iff.1 h
    obtain ⟨offset, -, h⟩ := bind_eq_ok_iff.1 h
    obtain rfl := Except.ok.inj h
    exact hown _
  · obtain ⟨⟨c, spans⟩, -, h⟩ := bind_eq_ok_iff.1 h
    obtain ⟨a, -, h⟩ := bind_eq_ok_iff.1 h
    obtain ⟨start, -, h⟩ := bind_eq_ok_iff.1 h
    obtain ⟨b, -, h⟩ := bind_eq_ok_iff.1 h
    obtain ⟨stop, -, h⟩ := bind_eq_ok_iff.1 h
    obtain rfl := Except.ok.inj h
    exact ⟨hown _, hown _⟩

end Settled

end Document

end CellStitch
