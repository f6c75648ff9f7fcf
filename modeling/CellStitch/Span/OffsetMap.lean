import CellStitch.Failure
import CellStitch.Span.Basic
/-!
# Mapping offsets through spans

`Span.toSynthetic` sends an offset of a cell to the document, `Span.toReal` sends one back. At a
boundary that a verbatim span shares with an annotation, the place before the annotation wins; an
offset inside injected text goes to the cell offset at which that text stands. Offsets outside all
spans go to the nearer end.
-/

namespace CellStitch.Span

/-- The document offset of a cell offset. -/
def toSynthetic (spans : List Span) (real : Int) : Except Failure Int :=
  match spans.find? fun s ↦ s.verbatim && s.realStart ≤ real && real ≤ s.realStop with
  | some s => .ok (s.start + (real - s.realStart))
  | none =>
    match spans with
    | [] => .error .noSpans
    | first :: rest =>
      if real < first.realStart then .ok first.start else .ok (stopOf (first :: rest))

/-- The cell offset of a document offset. -/
def toReal (spans : List Span) (offset : Int) : Except Failure Int :=
  match spans.find? fun s ↦ s.contains offset with
  | some s => .ok (if s.verbatim then s.realStart + (offset - s.start) else s.realStart)
  | none =>
    match spans with
    | [] => .error .noSpans
    | first :: rest =>
      if offset < first.start then .ok first.realStart
      else .ok ((first :: rest).getLastD first).realStop

end CellStitch.Span
