import CellStitch.Cell.Basic
import CellStitch.Proofs.Text.Search
/-!
# Offsets and positions of a cell

A cell adds up the lines above a position to find its offset, and counts the breaks in front of an
offset to find its position; its document looks offsets up among line starts. Every mapping between
the two uses one kind of arithmetic on one side and the other on the other side.

They agree on every text and at every offset of it, also where breaks or empty lines meet and at the
end of the text (`Cell.offsetsAgree`). Each field of `Cell.OffsetsAgree` rests on a fact about texts
alone, from `CellStitch.Proofs.Text.Positions` and `CellStitch.Proofs.Text.Search`.
-/

namespace CellStitch

namespace Cell

variable {c : Cell} {p : Position} {o : Nat} {f : Failure}

/-! ### Offsets that are found, and those that are not -/

theorem offsetAt_eq_ok_iff : c.offsetAt p = .ok o ↔ c.text.offsetAt? p = some o := by
  unfold offsetAt
  cases c.text.offsetAt? p <;> simp

theorem offsetAt_eq_error_iff : c.offsetAt p = .error f ↔
    c.text.lines.length ≤ p.line ∧ f = .lineOutOfRange p.line c.text.lines.length := by
  rw [offsetAt]
  rcases hoff : c.text.offsetAt? p with - | o
  · have hline : c.text.lines.length ≤ p.line := by
      rw [Text.offsetAt?, Option.map_eq_none_iff] at hoff
      exact List.getElem?_eq_none_iff.1 hoff
    simp [hline, eq_comm]
  · simp [Nat.not_le.2 (Text.lt_of_offsetAt?_eq_some hoff)]

theorem exists_offsetAt (h : p.line < c.text.lines.length) : ∃ o, c.offsetAt p = .ok o := by
  obtain ⟨o, ho⟩ := Text.exists_offsetAt?_of_lt h
  exact ⟨o, offsetAt_eq_ok_iff.2 ho⟩

/-- The cell's own positions, from a position and back, only lose what is behind the line. -/
theorem positionAt_of_offsetAt (h : c.offsetAt p = .ok o) :
    o ≤ c.text.length ∧ c.positionAt o = c.text.onLine p :=
  Text.positionAt_of_offsetAt? (offsetAt_eq_ok_iff.1 h)

/-! ### All kinds of arithmetic -/

/-- What offsets and positions of a cell have to do with one another, and with line starts. -/
structure OffsetsAgree (c : Cell) : Prop where
  /-- The line starts of the text give the same position of an offset. -/
  ofLineStarts_eq : ∀ o ≤ c.text.length,
    Position.ofLineStarts c.text.lineStarts o = c.positionAt o
  /-- So does a search by halves, among line starts that are found one behind the other. -/
  amongStarts?_eq : ∀ o ≤ c.text.length,
    Position.amongStarts? c.text.searchedStarts o = (c.positionAt o).onWire?
  /-- So does a search backwards from the offset. -/
  positionBehindBreak?_eq : ∀ o ≤ c.text.length,
    c.text.positionBehindBreak? o = (c.positionAt o).onWire?
  /-- The wire carries the positions of every cell that is not longer than its largest number. -/
  onWire?_positionAt : (c.text.length : Int) ≤ Position.bound → ∀ o ≤ c.text.length,
    (c.positionAt o).onWire? = some (c.positionAt o)
  /-- An offset is found again from its position. -/
  offsetAt_positionAt : ∀ o ≤ c.text.length, c.offsetAt (c.positionAt o) = .ok o
  /-- A position on a line of the cell is found again from its offset, with its character cut to the
  line. -/
  positionAt_offsetAt : ∀ (p : Position) (line : Text), c.text.lines[p.line]? = some line →
    ∃ o ≤ c.text.length, c.offsetAt p = .ok o ∧
      c.positionAt o = ⟨p.line, min p.character line.length⟩
  /-- A position on any other line has no offset. -/
  offsetAt_eq_error : ∀ p : Position, c.text.lines.length ≤ p.line →
    c.offsetAt p = .error (.lineOutOfRange p.line c.text.lines.length)

/-- **Cells and documents reckon positions alike**, and the offsets of a cell undo its positions. -/
theorem offsetsAgree (c : Cell) : c.OffsetsAgree := by
  constructor
  · intro o ho
    exact Text.ofLineStarts_lineStarts ho
  · intro o ho
    rw [Text.searchedStarts_eq]
    exact Text.amongStarts?_lineStarts ho
  · intro o _
    exact c.text.positionBehindBreak?_eq o
  · intro h o _
    exact Text.onWire?_positionAt h o
  · intro o ho
    exact offsetAt_eq_ok_iff.2 (Text.offsetAt?_positionAt ho)
  · intro p line hline
    obtain ⟨o, ho⟩ := exists_offsetAt (List.getElem?_eq_some_iff.1 hline).1
    obtain ⟨hle, hpos⟩ := positionAt_of_offsetAt ho
    refine ⟨o, hle, ho, hpos.trans ?_⟩
    rw [Text.onLine, List.getD_eq_getElem?_getD, hline, Option.getD_some]
  · intro p hp
    exact offsetAt_eq_error_iff.2 ⟨hp, rfl⟩

/-- The second line is empty, and the third one is not ended. -/
theorem offsetsAgree_emptyLine :
    let c : Cell := ⟨"nb-cell:a", "python", 1, "foo\n\nbar".toList⟩
    4 ≤ c.text.length ∧ c.positionAt 4 = ⟨1, 0⟩ ∧ c.offsetAt (c.positionAt 4) = .ok 4 ∧
      Position.ofLineStarts c.text.lineStarts 4 = ⟨1, 0⟩ ∧
      Position.amongStarts? c.text.searchedStarts 4 = some ⟨1, 0⟩ ∧
      (∃ o ≤ c.text.length, c.offsetAt ⟨2, 9⟩ = .ok o ∧ c.positionAt o = ⟨2, 3⟩) ∧
      c.offsetAt ⟨3, 0⟩ = .error (.lineOutOfRange 3 3) := by
  intro c
  have hall := c.offsetsAgree
  have hle : 4 ≤ c.text.length := by decide
  have hpos : c.positionAt 4 = ⟨1, 0⟩ := by decide
  have hwire := hall.onWire?_positionAt (by decide) 4 hle
  refine ⟨hle, hpos, hall.offsetAt_positionAt 4 hle, ?_, ?_, ?_, ?_⟩
  · exact (hall.ofLineStarts_eq 4 hle).trans hpos
  · exact (hall.amongStarts?_eq 4 hle).trans (hwire.trans (congrArg some hpos))
  · exact hall.positionAt_offsetAt ⟨2, 9⟩ "bar".toList (by decide)
  · exact hall.offsetAt_eq_error ⟨3, 0⟩ (by decide)

end Cell

end CellStitch
