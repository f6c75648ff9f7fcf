import CellStitch.Address.Notebook
import CellStitch.Text.Offsets
/-!
# Cells

An open cell: its identity, its language, the version of its text, and the text.
-/

namespace CellStitch

/-- An open cell. -/
structure Cell where
  uri : String
  language : String
  version : Int
  text : Text
  deriving DecidableEq, Repr, Inhabited

namespace Cell

/-- Whether a cell is the input box of an interactive window. -/
def isInput (c : Cell) : Except Failure Bool := CellStitch.isInput c.uri

/-- The offset of a position of the cell. The character is cut to its line; the line must exist. -/
def offsetAt (c : Cell) (p : Position) : Except Failure Nat :=
  match c.text.offsetAt? p with
  | some offset => .ok offset
  | none => .error (.lineOutOfRange p.line c.text.lines.length)

/-- The position of an offset, which is first cut to the text of the cell. -/
def positionAt (c : Cell) (offset : Int) : Position := c.text.positionAt offset

end Cell

end CellStitch
