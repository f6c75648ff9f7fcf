import CellStitch.Proofs.Cell.Apart
import CellStitch.Proofs.Document.Step
/-!
# A change is one of its cell

What a change makes of a document, and whether it fails or is told, is decided by its cell alone:
the cell as it is before the change says what it is afterwards (`Cell.changed`), and all other cells
stay as they are (`Settled.handle_changed`). Neither the place of the cell nor the header in front
of it plays a part, although each edit is carried out on the spans and the text of the document.
-/

namespace CellStitch

namespace Cell

/-- The cell after edits one after another, up to the first that does not fit. -/
def edited (c : Cell) (version : Int) : List Edit → Cell × Except Failure Unit
  | [] => (c, .ok ())
  | e :: edits =>
    match Document.editedOffsets c e with
    | .error f => (c, .error f)
    | .ok (start, stop) =>
      edited { c with
        text := c.text.splice start stop e.text
        version := max c.version version } version edits

/-- The cell after a change, and whether the change is told. -/
def changed (c : Cell) (version : Int) (edits : List Edit) : Cell × Except Failure Bool :=
  if version ≤ c.version then (c, .ok false)
  else ((c.edited version edits).1, (c.edited version edits).2.map fun _ ↦ !edits.isEmpty)

variable {version : Int} {edits : List Edit}

@[simp] theorem uri_edited (c : Cell) : (c.edited version edits).1.uri = c.uri := by
  induction edits generalizing c with
  | nil => rfl
  | cons e edits ih =>
    rw [edited]
    split
    · rfl
    · rw [ih]

@[simp] theorem uri_changed (c : Cell) : (c.changed version edits).1.uri = c.uri := by
  rw [changed]
  split
  · rfl
  · exact uri_edited c

end Cell

namespace Document

variable {d : Document} {uri : String} {c : Cell} {version : Int}

/-- **Edits of a cell** put in its place what they make of it, and some are passed on if there are
some. -/
theorem Settled.editCells_eq (hd : d.Settled) (hc : d.cells.cell? uri = some c) (version : Int)
    (edits : List Edit) :
    (d.editCells uri version edits).1.cells =
        d.cells.update uri (fun _ ↦ (c.edited version edits).1) ∧
      (d.editCells uri version edits).2.map List.isEmpty =
        (c.edited version edits).2.map fun _ ↦ edits.isEmpty := by
  induction edits generalizing d c with
  | nil =>
    obtain ⟨before, after, hfirst⟩ := CellList.exists_firstAt hc
    exact ⟨(hfirst.update_eq_self rfl).symm, rfl⟩
  | cons e edits ih =>
    obtain ⟨s, rfl⟩ := hd.exists_site hc
    rw [Document.editCells, Cell.edited]
    rcases hoff : editedOffsets s.cell e with f | ⟨a, b⟩
    · rw [s.editCell_eq_error version hoff]
      exact ⟨(s.firstAt.update_eq_self rfl).symm, rfl⟩
    · rw [s.editCell_eq_ok hd version hoff]
      set c₁ := s.editedCell a b e.text version
      -- the other edits find the edited cell at the same place
      have hfirst : (s.put c₁).cells.FirstAt uri s.before c₁ s.after :=
        ⟨rfl, s.uri_cell, s.firstAt.fresh⟩
      obtain ⟨hcells, hout⟩ := ih (s.settled_put (c := c₁) s.uri_cell) hfirst.cell?
      constructor
      · show ((s.put c₁).editCells uri version edits).1.cells =
          d.cells.update uri fun _ ↦ (c₁.edited version edits).1
        rw [hcells, hfirst.update, s.firstAt.update]
      · -- whatever the others pass on, this one is passed on in front of it
        show (((s.put c₁).editCells uri version edits).2.map _).map List.isEmpty =
          (c₁.edited version edits).2.map _
        have hfront := congrArg (Except.map fun _ ↦ false) hout
        rw [except_map_map, except_map_map] at hfront
        rw [except_map_map]
        exact hfront

@[simp] theorem cells_emit (d : Document) (edits : List Edit) :
    (d.emit edits).1.cells = d.cells := by
  rw [emit]
  split <;> rfl

theorem text_emit (d : Document) (edits : List Edit) : (d.emit edits).1.text = d.text := by
  rw [emit]
  split <;> rfl

/-- Edits are told if there are some. -/
theorem isSome_emit (d : Document) (edits : List Edit) :
    (d.emit edits).2.isSome = !edits.isEmpty := by
  rw [emit]
  split <;> simp [*]

/-- **What a change makes of its cell**, and whether it is told. -/
theorem Settled.handle_changed (hd : d.Settled) (uri : String) (version : Int)
    (edits : List Edit) :
    (d.handle (.changed uri version edits)).1.cells =
        d.cells.update uri (fun c ↦ (c.changed version edits).1) ∧
      (d.handle (.changed uri version edits)).2.map Option.isSome =
        match d.cells.cell? uri with
        | none => .ok false
        | some c => (c.changed version edits).2 := by
  rw [Document.handle, changeCell]
  rcases hcell : d.cells.cell? uri with - | c
  · exact ⟨(CellList.update_eq_self hcell _).symm, rfl⟩
  · obtain ⟨before, after, hfirst⟩ := CellList.exists_firstAt hcell
    rw [hfirst.update]
    dsimp only [Cell.changed]
    split
    · exact ⟨hfirst.cells_eq, rfl⟩
    · obtain ⟨hcells, hout⟩ := hd.editCells_eq hcell version edits
      have htold := congrArg (Except.map not) hout
      rw [except_map_map, except_map_map] at htold
      rw [hfirst.update] at hcells
      rcases hrun : d.editCells uri version edits with ⟨d', f | out⟩ <;> rw [hrun] at hcells htold
      · exact ⟨hcells, htold⟩
      · refine ⟨(cells_emit d' out).trans hcells, ?_⟩
        show Except.ok (d'.emit out).2.isSome = _
        rw [isSome_emit]
        exact htold

end Document

end CellStitch
