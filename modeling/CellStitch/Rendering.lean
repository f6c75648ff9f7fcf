import CellStitch.SkipMark
/-!
# Rendering line by line

What a document's text is, said line by line and without spans: a line that needs it has the
annotation at its end, before a carriage return that ends the line; every cell is ended by a line
break; and the header stands in front of all.
-/

namespace CellStitch.Rendering

/-- A line with the annotation at its end, before a carriage return that ends it. -/
def markLine (line : Text) : Text :=
  if line.endsWith '\r' then line.dropLast ++ skipMark ++ ['\r'] else line ++ skipMark

/-- A line as a document has it. -/
def line (annotate : Bool) (l : Text) : Text :=
  if annotate && needsSkipMark l then markLine l else l

/-- A text as a document has it. -/
def text (annotate : Bool) (t : Text) : Text := Text.unlines (t.lines.map (line annotate))

/-- A header, ended by one line break if there is a header and it has none at its end. -/
def header (h : Text) : Text :=
  if h.isEmpty || h.endsWith '\n' then h else h ++ ['\n']

/-- The document of texts that follow one another. Without texts it is empty. -/
def document (h : Text) (annotate : Bool) (texts : List Text) : Text :=
  if texts.isEmpty then [] else header h ++ texts.flatMap fun t ↦ text annotate t ++ ['\n']

end CellStitch.Rendering
