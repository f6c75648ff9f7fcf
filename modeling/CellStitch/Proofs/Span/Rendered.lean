import CellStitch.Proofs.Span.Layout
import CellStitch.Proofs.Text.Injective
/-!
# The text of a layout

A layout cuts a text at its annotations and not at its lines. Still its characters are those of the
text line by line (`Span.textOf_layOut`): the step is one line in front of pieces
(`Piece.shown_writeLine`), which may begin with text that the line joins.

So the text can be told from the layout (`Span.textOf_layOut_inj_and_needsSkipMark_markLine`).
-/

namespace CellStitch

/-- A line as a document has it, in the three cases. -/
theorem Rendering.line_eq (annotate : Bool) (l : Text) : line annotate l =
    if annotate = false ∨ needsSkipMark l = false then l
    else if l.getLast? = some '\r' then l.dropLast ++ skipMark ++ ['\r']
    else l ++ skipMark := by
  rw [line, markLine]
  cases annotate <;> cases needsSkipMark l <;> simp [Text.endsWith]

namespace Span

/-- **The text of a layout** is the header, and then the text line by line. A line that gets the
annotation has it at its end, or before its last character if that is a carriage return. -/
theorem textOf_layOut (uri : String) (text : Text) (offset real : Int) (header : Text)
    (annotate : Bool) : textOf (layOut uri text offset real header annotate) =
      header ++ Text.unlines (text.lines.map fun line ↦
        if annotate = false ∨ needsSkipMark line = false then line
        else if line.getLast? = some '\r' then line.dropLast ++ skipMark ++ ['\r']
        else line ++ skipMark) := by
  rw [layOut, textOf_place, Piece.shown_withHeader, Piece.shown_ofText, Rendering.text,
    funext (Rendering.line_eq annotate)]

/-- **A text can be told from its layout**, because no line is one to skip only by the annotation
that it got. Put into a line that gets none, the annotation would make a difference to the keyword
alone, and to no other line. -/
theorem textOf_layOut_inj_and_needsSkipMark_markLine :
    (∀ (uri uri' : String) (text text' : Text) (offset offset' real real' : Int) (header : Text)
      (annotate : Bool), textOf (layOut uri text offset real header annotate) =
        textOf (layOut uri' text' offset' real' header annotate) ↔ text = text') ∧
    (∀ line, needsSkipMark (Rendering.markLine line) = needsSkipMark line ↔
      line.trim ≠ "await".toList) ∧
    ∀ line, needsSkipMark (Rendering.markLine line) = true ↔
      needsSkipMark line = true ∨ line.trim = "await".toList := by
  refine ⟨?_, fun _ ↦ Rendering.needsSkipMark_markLine_eq_iff,
    fun _ ↦ Rendering.needsSkipMark_markLine_iff⟩
  intro uri uri' text text' offset offset' real real' header annotate
  rw [layOut, layOut, textOf_place, textOf_place, Piece.shown_withHeader, Piece.shown_withHeader,
    Piece.shown_ofText, Piece.shown_ofText, List.append_cancel_left_eq]
  constructor
  · exact Rendering.text_injective
  · rintro rfl
    rfl

/-- With the annotation behind it, the keyword has an operand. -/
theorem needsSkipMark_markLine_await :
    needsSkipMark "await".toList = false ∧
      Rendering.markLine "await".toList = "await # type: ignore".toList ∧
      needsSkipMark (Rendering.markLine "await".toList) = true := by
  decide

end Span

end CellStitch
