import CellStitch.Text.Lines
import CellStitch.Position
/-!
# Offsets and positions, by lines and breaks

The arithmetic of a single text that is cut into lines on every question. An offset is found by
adding up the lines above a position, a position by counting the breaks before an offset. The
document keeps its line starts and answers the same questions from them
(`CellStitch.Text.LineStarts`).
-/

namespace CellStitch.Text

/-- The number of characters of lines, each with its break. -/
def lengthWithBreaks : List Text → Nat
  | [] => 0
  | l :: ls => l.length + 1 + lengthWithBreaks ls

/-- The offset of a position. A character behind the end of its line counts as the end of the line;
a line that the text does not have has no offset. -/
def offsetAt? (t : Text) (p : Position) : Option Nat :=
  t.lines[p.line]?.map fun l ↦
    lengthWithBreaks (t.lines.take p.line) + min p.character l.length

/-- The position of an offset, which is first cut to the text. -/
def positionAt (t : Text) (offset : Int) : Position :=
  let before := t.take (clamp t.length offset)
  ⟨before.count '\n', (before.reverse.takeWhile (· ≠ '\n')).length⟩

end CellStitch.Text
