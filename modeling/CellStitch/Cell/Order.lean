import CellStitch.Cell.Basic
/-!
# Cells in order

The cells of a document in the order in which their texts follow one another. Cells keep the order
in which they were opened; the input box of an interactive window stands last.

Where a URI occurs more than once, its first cell is meant.
-/

namespace CellStitch

/-- Cells in order. -/
abbrev CellList := List Cell

namespace CellList

/-! ### Looking up -/

/-- The cell with a URI. -/
def cell? (cells : CellList) (uri : String) : Option Cell := cells.find? (·.uri == uri)

/-- The place of the cell with a URI. -/
def indexOf? (cells : CellList) (uri : String) : Option Nat := cells.findIdx? (·.uri == uri)

/-- Whether there is a cell with a URI. -/
def has (cells : CellList) (uri : String) : Bool := (cells.indexOf? uri).isSome

/-! ### Changing one cell -/

/-- Changes the cell with a URI. -/
def update (uri : String) (f : Cell → Cell) : CellList → CellList
  | [] => []
  | c :: cells => if c.uri = uri then f c :: cells else c :: update uri f cells

/-- Takes the cell with a URI away. -/
def remove (uri : String) : CellList → CellList
  | [] => []
  | c :: cells => if c.uri = uri then cells else c :: remove uri cells

/-- Whether the last cell is an input box. -/
def endsWithInput (cells : CellList) : Except Failure Bool :=
  match cells.getLast? with
  | none => .ok false
  | some c => c.isInput

/-- Opens a cell, and says where it stands. A cell that is open already is replaced where it stands,
and its version grows. A new cell goes to the end, but before an input box there unless it is one
itself. -/
def openCell (cells : CellList) (cell : Cell) : Except Failure (Nat × CellList) :=
  match cells.indexOf? cell.uri with
  | some i =>
    .ok (i, cells.update cell.uri fun old ↦
      { cell with version := max (old.version + 1) cell.version })
  | none => do
    let before ← if ← cell.isInput then pure false else cells.endsWithInput
    let i := if before then cells.length - 1 else cells.length
    pure (i, cells.take i ++ cell :: cells.drop i)

/-- Closes a cell, and returns it. -/
def closeCell (cells : CellList) (uri : String) : Option (Cell × CellList) :=
  (cells.cell? uri).map fun c ↦ (c, cells.remove uri)

/-- Replaces a stretch of a cell's text, and returns the cell as it is then. The version never
falls. -/
def edit (cells : CellList) (uri : String) (start stop : Int) (new : Text) (version : Int) :
    Except Failure (Cell × CellList) :=
  match cells.cell? uri with
  | none => .error (.cellNotOpen uri)
  | some c =>
    if 0 ≤ start ∧ start ≤ stop ∧ stop ≤ c.text.length then
      let edited : Cell :=
        { c with
          text := c.text.splice start.toNat stop.toNat new
          version := max c.version version }
      .ok (edited, cells.update uri fun _ ↦ edited)
    else .error (.editOutOfRange start stop c.text.length)

/-! ### Changing all cells -/

/-- The cells that are no input boxes, and those that are. -/
def splitInputs : CellList → Except Failure (CellList × CellList)
  | [] => .ok ([], [])
  | c :: cells => do
    let input ← c.isInput
    let (others, inputs) ← splitInputs cells
    pure (if input then (others, c :: inputs) else (c :: others, inputs))

/-- Puts other cells in place of all. Of several input boxes the last one stays; if there is none
among the new cells, the last one of the old cells stays. -/
def replaceAll (cells incoming : CellList) : Except Failure CellList := do
  let (others, inputs) ← splitInputs incoming
  let inputs ← if inputs.isEmpty then Prod.snd <$> splitInputs cells else pure inputs
  pure (others ++ inputs.getLast?.toList)

end CellList

end CellStitch
