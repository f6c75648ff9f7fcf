import CellStitch.Span.Layout
/-!
# Laying a text out in one pass

A second way to the spans of a text. The lines are gone through once, and spans are put behind those
that were made before. Three offsets are kept: where the next span starts in the document, where the
text begins in the cell that no span has yet, and where the line begins. Text without a span is only
taken when an annotation is due, and at the end.
-/

namespace CellStitch

/-- The characters from one offset of a text up to another. -/
def Text.slice (t : Text) (start stop : Nat) : Text := (t.take stop).drop start

namespace Span

/-- The span of text of the cell. -/
def ofCell (uri : String) (text : Text) (offset real : Int) : Span :=
  ⟨uri, text, offset, offset + text.length, real, real + text.length, true⟩

/-- The span of text that only the document has. -/
def ofDocument (uri : String) (text : Text) (offset real : Int) : Span :=
  ⟨uri, text, offset, offset + text.length, real, real, false⟩

/-- What is kept on the way through the lines of a text. -/
structure Pass where
  /-- The spans that are made. -/
  spans : List Span
  /-- Where the next span starts in the document. -/
  offset : Int
  /-- Where the text without a span begins. -/
  runStart : Nat
  /-- Where the line begins. -/
  lineStart : Nat

namespace Pass

/-- Nothing is made yet but the span of the header. -/
def start (uri : String) (offset real : Int) (header : Text) : Pass :=
  if header.isEmpty then ⟨[], offset, 0, 0⟩
  else ⟨[ofDocument uri header offset real], offset + header.length, 0, 0⟩

section Lines

variable (uri : String) (text : Text) (real : Int)

/-- Makes a span of the text up to an offset, if there is any. -/
def flush (x : Pass) (stop : Nat) : Pass :=
  let chunk := text.slice x.runStart stop
  if chunk.isEmpty then { x with runStart := stop }
  else
    { x with
      spans := x.spans ++ [ofCell uri chunk x.offset (real + x.runStart)]
      offset := x.offset + chunk.length
      runStart := stop }

/-- Makes the span of an annotation at an offset of the cell. -/
def mark (x : Pass) (insertAt : Nat) : Pass :=
  { x with
    spans := x.spans ++ [ofDocument uri skipMark x.offset (real + insertAt)]
    offset := x.offset + skipMark.length }

/-- Passes over one line. -/
def line (annotate : Bool) (x : Pass) (line : Text) : Pass :=
  let lineEnd := x.lineStart + line.length
  let x :=
    if annotate && needsSkipMark line then
      let insertAt := if line.endsWith '\r' then lineEnd - 1 else lineEnd
      (x.flush uri text real insertAt).mark uri real insertAt
    else x
  { x with lineStart := lineEnd + 1 }

/-- The spans at the end of the text: the rest of it has its span too. -/
def finish (x : Pass) : List Span := (x.flush uri text real text.length).spans

end Lines

end Pass

/-- The spans of a text, made in one pass over its lines. -/
def scan (uri : String) (text : Text) (offset real : Int) (header : Text) (annotate : Bool) :
    List Span :=
  (text.lines.foldl (Pass.line uri text real annotate) (.start uri offset real header)).finish
    uri text real

end Span

end CellStitch
