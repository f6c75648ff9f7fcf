import CellStitch.Text.Lines
/-!
# Spans

The rewritten text of a cell is described by spans. A verbatim span carries text of the cell, an
injected one carries text that exists only in the document: the header or an annotation.
-/

namespace CellStitch

/-- A run of document text and where it comes from. -/
structure Span where
  /-- The cell that the run belongs to. -/
  uri : String
  /-- The characters of the run. -/
  text : Text
  /-- Where the run starts in the document. -/
  start : Int
  /-- Where the run stops in the document. -/
  stop : Int
  /-- Where the run starts in the cell. -/
  realStart : Int
  /-- Where the run stops in the cell; for an injected span the same as `realStart`. -/
  realStop : Int
  /-- Whether the run is text of the cell. -/
  verbatim : Bool
  deriving DecidableEq, Repr

namespace Span

/-- The number of document offsets that a span takes. -/
def length (s : Span) : Int := s.stop - s.start

/-- Whether a document offset lies in a span. -/
def contains (s : Span) (offset : Int) : Bool := s.start ≤ offset && offset < s.stop

/-- The span moved by `delta` in the document; its place in the cell stays. -/
def shift (s : Span) (delta : Int) : Span :=
  { s with start := s.start + delta, stop := s.stop + delta }

/-- Where a list of spans starts, or 0 for none. -/
def startOf (spans : List Span) : Int := (spans.head?.map Span.start).getD 0

/-- Where a list of spans stops, or 0 for none. -/
def stopOf (spans : List Span) : Int := (spans.getLast?.map Span.stop).getD 0

/-- The document text of a list of spans. -/
def textOf (spans : List Span) : Text := spans.flatMap Span.text

end Span

end CellStitch
