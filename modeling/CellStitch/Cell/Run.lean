import CellStitch.Cell.Order
/-!
# Runs of a cell list

The cell lists that arise from operations. An operation that fails changes nothing.
-/

namespace CellStitch.CellList

/-- An operation on cells in order. -/
inductive Step where
  | opened (cell : Cell)
  | closed (uri : String)
  | edited (uri : String) (start stop : Int) (new : Text) (version : Int)
  | replaced (cells : CellList)
  deriving Repr

/-- The cells after an operation. -/
def after (cells : CellList) : Step → CellList
  | .opened c =>
    match cells.openCell c with
    | .ok (_, cells) => cells
    | .error _ => cells
  | .closed uri =>
    match cells.closeCell uri with
    | some (_, cells) => cells
    | none => cells
  | .edited uri start stop new version =>
    match cells.edit uri start stop new version with
    | .ok (_, cells) => cells
    | .error _ => cells
  | .replaced incoming =>
    match cells.replaceAll incoming with
    | .ok cells => cells
    | .error _ => cells

/-- The cells after operations. -/
def run (cells : CellList) (steps : List Step) : CellList := steps.foldl after cells

end CellStitch.CellList
