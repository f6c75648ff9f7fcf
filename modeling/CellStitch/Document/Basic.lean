import CellStitch.Cell.Order
import CellStitch.Event
import CellStitch.Settings.Basic
import CellStitch.Span.Layout
import CellStitch.Span.OffsetMap
/-!
# Documents

The document of a notebook: the header and the texts of its cells, each rewritten by its spans and
ended by a line break. The document keeps the spans of every cell, the whole text and its line
starts, so that an edit of one cell need not lay out the others again (`Document.editCell`).

`Document.rebuild` computes all of this from the cells.
-/

namespace CellStitch

/-- The document of a notebook. -/
structure Document where
  uri : String
  settings : Settings
  /-- The header, ended by a line break if there is one. -/
  header : Value
  cells : CellList
  /-- The spans of each cell. -/
  spans : List (List Span)
  text : Text
  lineStarts : List Nat
  /-- The number of updates that were sent. -/
  version : Nat

namespace Document

/-! ### The header -/

/-- The header as a document keeps it. One that is set must be a text, and gets a line break at its
end if it has none there. -/
def keptHeader (v : Value) : Except Failure Value :=
  if v.isSet then
    match v with
    | .text s =>
      .ok (.text (if Text.endsWith s.toList '\n' then s else String.ofList (s.toList ++ ['\n'])))
    | _ => .error .headerNotText
  else .ok v

/-- A document without cells. -/
def new (uri : String) (settings : Settings) : Except Failure Document := do
  let header ← keptHeader (settings.header uri)
  pure ⟨uri, settings, header, [], [], [], [0], 0⟩

/-- The text of the header. -/
def headerText (d : Document) : Text :=
  match d.header with
  | .text s => s.toList
  | _ => []

/-! ### Laying out -/

/-- The spans of a text at an offset. A text at the start of the document has the header in front,
unless it belongs to an input box. -/
def layOut (d : Document) (uri : String) (text : Text) (offset real : Int) :
    Except Failure (List Span) := do
  let header ← if offset = 0 then do
      let input ← isInput uri
      pure (if input then [] else d.headerText)
    else pure []
  pure (Span.layOut uri text offset real header d.settings.marks)

/-- The spans of a cell at an offset. The cell is ended by a line break. -/
def spansOf (d : Document) (c : Cell) (offset : Int) : Except Failure (List Span) :=
  d.layOut c.uri (c.text ++ ['\n']) offset 0

/-- The spans of cells that follow one another from an offset. -/
def spansFrom (d : Document) (offset : Int) : CellList → Except Failure (List (List Span))
  | [] => .ok []
  | c :: cells => do
    let spans ← d.spansOf c offset
    let rest ← d.spansFrom (Span.stopOf spans) cells
    pure (spans :: rest)

/-- The document with another text. -/
def setText (d : Document) (text : Text) : Document :=
  { d with text := text, lineStarts := text.lineStarts }

/-- The document with spans and text computed from its cells. -/
def rebuild (d : Document) : Except Failure Document := do
  let spans ← d.spansFrom 0 d.cells
  pure ({ d with spans := spans }.setText (spans.flatMap Span.textOf))

end Document

end CellStitch
