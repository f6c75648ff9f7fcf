import CellStitch.Text.Lines
import CellStitch.Position
/-!
# Offsets and positions, by line starts

The arithmetic of a text whose line starts are known: the line of an offset is the last one that
starts at or before it. The lists are those of `Text.lineStarts`, so they begin with 0 and increase.
-/

namespace CellStitch

/-- The number of entries of an increasing list that are at most `x`. -/
def countUpTo {α : Type} [LE α] [DecidableLE α] (xs : List α) (x : α) : Nat :=
  (xs.takeWhile (· ≤ x)).length

/-- The position of an offset in a text with the given line starts. -/
def Position.ofLineStarts (starts : List Nat) (offset : Nat) : Position :=
  let line := countUpTo starts offset - 1
  ⟨line, offset - starts.getD line 0⟩

end CellStitch
