import CellStitch.Document.Basic
/-!
# Questions to a document

Lines, offsets and positions of a document, and the way between positions of a document and
positions of its cells.

The last line start of a document is the end of its text, so a document has one line fewer than it
has line starts; a position on the line behind the last one is the end of the text.
-/

namespace CellStitch.Document

/-! ### The text -/

/-- The number of lines. -/
def lineCount (d : Document) : Nat := d.lineStarts.length - 1

/-- The language of the first cell, or none. -/
def language (d : Document) : String := (d.cells.head?.map Cell.language).getD ""

/-- The URIs of the cells in order. -/
def cellUris (d : Document) : List String := d.cells.map Cell.uri

/-- One line of a document, without its break. -/
structure Line where
  number : Nat
  text : Text
  range : Range
  deriving DecidableEq, Repr

/-- Whether a line has no character that is not blank. -/
def Line.isBlank (l : Line) : Bool := l.text.isBlank

/-- Where a line starts. -/
def lineStart (d : Document) (line : Nat) : Nat := d.lineStarts.getD line 0

/-- The number of characters on a line, without its break. -/
def lineLength (d : Document) (line : Nat) : Nat := d.lineStart (line + 1) - 1 - d.lineStart line

/-- A line by its number. -/
def lineAt (d : Document) (line : Int) : Except Failure Line :=
  if 0 ≤ line ∧ line < d.lineCount then
    let n := line.toNat
    let text := (d.text.drop (d.lineStart n)).take (d.lineLength n)
    .ok ⟨n, text, ⟨⟨n, 0⟩, ⟨n, text.length⟩⟩⟩
  else .error (.lineOutOfRange line d.lineCount)

/-- The offset of a position. The character is cut to its line. -/
def offsetAt (d : Document) (p : Position) : Except Failure Nat :=
  if d.lineCount < p.line then .error (.lineOutOfRange p.line d.lineCount)
  else if p.line = d.lineCount then .ok d.text.length
  else .ok (d.lineStart p.line + min p.character (d.lineLength p.line))

/-- The position of an offset, which is first cut to the text. -/
def positionAt (d : Document) (offset : Int) : Position :=
  .ofLineStarts d.lineStarts (Text.clamp d.text.length offset)

/-- Whether a position lies in the header. -/
def inHeader (d : Document) (p : Position) : Except Failure Bool :=
  match d.spans.head?.bind List.head? with
  | none => .ok false
  | some first =>
    if first.verbatim then .ok false
    else do
      let offset ← d.offsetAt p
      pure (decide ((offset : Int) < first.stop))

/-! ### From the document to the cells -/

/-- The place of the cell in which an offset lies: the last one that starts at or before it. -/
def cellIndexAt (d : Document) (offset : Nat) : Nat :=
  min (countUpTo (d.spans.map Span.startOf) (offset : Int) - 1) (d.spans.length - 1)

/-- The cell and the offset in it that a position means. Without cells it is the document itself,
at 0. -/
def notebookOffsetAt (d : Document) (p : Position) : Except Failure (String × Int) := do
  let offset ← d.offsetAt p
  match (d.cells.zip d.spans)[d.cellIndexAt offset]? with
  | none => pure (d.uri, 0)
  | some (c, spans) =>
    let real ← Span.toReal spans offset
    pure (c.uri, min real c.text.length)

/-- The range of a cell that a range of the document means. A range that ends in another cell is cut
at the end of the cell it starts in, and one that ends before it starts is empty. -/
def notebookLocationAt (d : Document) (r : Range) : Except Failure Location := do
  let (uri, start) ← d.notebookOffsetAt r.start
  match d.cells.cell? uri with
  | none => pure ⟨d.uri, ⟨⟨0, 0⟩, ⟨0, 0⟩⟩⟩
  | some c =>
    let (stopUri, stop) ← d.notebookOffsetAt r.stop
    let stop : Int := if stopUri = uri then stop else c.text.length
    pure ⟨uri, ⟨c.positionAt start, c.positionAt (max stop start)⟩⟩

/-! ### From the cells to the document -/

/-- A cell and its spans. -/
def lookUp (d : Document) (uri : String) : Except Failure (Cell × List Span) :=
  match d.cells.indexOf? uri with
  | none => .error (.cellNotFound uri)
  | some i =>
    match (d.cells.zip d.spans)[i]? with
    | none => .error (.cellNotFound uri)
    | some found => .ok found

/-- The spans of a cell. -/
def spansAt (d : Document) (uri : String) : Except Failure (List Span) := do
  let (_, spans) ← d.lookUp uri
  pure spans

/-- The position of the document that the start of a location in a cell means. -/
def positionOf (d : Document) (l : Location) : Except Failure Position := do
  let (c, spans) ← d.lookUp l.uri
  let offset ← Span.toSynthetic spans (← c.offsetAt l.range.start)
  pure (d.positionAt offset)

/-- The range of the document that a location in a cell means. -/
def rangeOf (d : Document) (l : Location) : Except Failure Range := do
  let (c, spans) ← d.lookUp l.uri
  let start ← Span.toSynthetic spans (← c.offsetAt l.range.start)
  let stop ← Span.toSynthetic spans (← c.offsetAt l.range.stop)
  pure ⟨d.positionAt start, d.positionAt (max start stop)⟩

end CellStitch.Document
