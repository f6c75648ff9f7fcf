import CellStitch.SkipMark
import CellStitch.Span.Basic
/-!
# Laying a text out as spans

A text is first cut into pieces, which know their kind and their characters (`Piece.ofText`), and
the pieces are then given their offsets in the document and in the cell (`Span.place`).

A run of lines that need no annotation is a single verbatim piece. An annotation stands at the end
of its line, but before a carriage return that ends the line, so that a line terminator of two
characters stays whole.
-/

namespace CellStitch

/-- A part of a rewritten text, before it has offsets. -/
inductive Piece where
  /-- Characters of the cell. -/
  | verbatim (text : Text)
  /-- Characters that only the document has. -/
  | injected (text : Text)
  deriving DecidableEq, Repr

namespace Piece

/-- The characters of a piece. -/
def text : Piece → Text
  | verbatim t => t
  | injected t => t

/-- Puts cell text in front of pieces, as part of a verbatim piece that they begin with. Empty text
makes no piece. -/
def write : Text → List Piece → List Piece
  | [], pieces => pieces
  | c :: t, verbatim u :: pieces => verbatim (c :: t ++ u) :: pieces
  | c :: t, pieces => verbatim (c :: t) :: pieces

/-- A line in two parts: what stands before the annotation, and the carriage return behind it. -/
def cutLine (line : Text) : Text × Text :=
  if line.endsWith '\r' then (line.dropLast, ['\r']) else (line, [])

/-- Puts one line in front of pieces, with its annotation if it needs one. -/
def writeLine (annotate : Bool) (line : Text) (pieces : List Piece) : List Piece :=
  if annotate && needsSkipMark line then
    write (cutLine line).1 (injected skipMark :: write (cutLine line).2 pieces)
  else write line pieces

/-- The pieces of a text that is given by its lines. -/
def ofLines (annotate : Bool) : List Text → List Piece
  | [] => []
  | [line] => writeLine annotate line []
  | line :: lines => writeLine annotate line (write ['\n'] (ofLines annotate lines))

/-- The pieces of a text. -/
def ofText (annotate : Bool) (t : Text) : List Piece := ofLines annotate t.lines

/-- Puts a header in front of pieces. An empty header makes no piece. -/
def withHeader (header : Text) (pieces : List Piece) : List Piece :=
  if header.isEmpty then pieces else injected header :: pieces

end Piece

namespace Span

/-- Gives pieces their offsets: each starts in the document where the previous one stops, and only
verbatim pieces advance in the cell. -/
def place (uri : String) : Int → Int → List Piece → List Span
  | _, _, [] => []
  | offset, real, .verbatim t :: pieces =>
    ⟨uri, t, offset, offset + t.length, real, real + t.length, true⟩ ::
      place uri (offset + t.length) (real + t.length) pieces
  | offset, real, .injected t :: pieces =>
    ⟨uri, t, offset, offset + t.length, real, real, false⟩ ::
      place uri (offset + t.length) real pieces

/-- The spans of a text that is placed at `offset` in the document and begins at `real` in the cell,
behind an optional header. -/
def layOut (uri : String) (text : Text) (offset real : Int) (header : Text) (annotate : Bool) :
    List Span :=
  place uri offset real (Piece.withHeader header (Piece.ofText annotate text))

end Span

end CellStitch
