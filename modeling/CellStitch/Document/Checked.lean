import CellStitch.Document.Query
/-!
# Questions with every look-up checked

The questions of `CellStitch.Document.Query` look up line starts, cells and spans by their places,
and go on with a default where a list has no entry at a place. Here every such look-up can fail by
itself, and that it finds nothing is told apart from all other failures (`Unanswered.noEntry`). It
is asked in the same order as there.

Positions are answered as they are, also those that are too large for the wire; which ones it
carries is said by `Position.onWire?`.
-/

namespace CellStitch

/-- Why a question with checked look-ups has no answer. -/
inductive Unanswered where
  /-- The question fails as it does without checks. -/
  | failure (f : Failure)
  /-- A list has no entry at the place that is looked up. -/
  | noEntry
  deriving DecidableEq, Repr

namespace Document.Checked

/-- The entry of a list at a place. -/
def entry {α : Type} (xs : List α) (i : Nat) : Except Unanswered α :=
  match xs[i]? with
  | some a => .ok a
  | none => .error .noEntry

/-- An outcome that looks nothing up. -/
def unchecked {α : Type} (x : Except Failure α) : Except Unanswered α := x.mapError .failure

/-! ### The text -/

/-- A line by its number. -/
def lineAt (d : Document) (line : Int) : Except Unanswered Line :=
  if 0 ≤ line ∧ line < d.lineCount then do
    let n := line.toNat
    let start ← entry d.lineStarts n
    let next ← entry d.lineStarts (n + 1)
    let text := (d.text.drop start).take (next - 1 - start)
    pure ⟨n, text, ⟨⟨n, 0⟩, ⟨n, text.length⟩⟩⟩
  else .error (.failure (.lineOutOfRange line d.lineCount))

/-- The offset of a position. -/
def offsetAt (d : Document) (p : Position) : Except Unanswered Nat :=
  if d.lineCount < p.line then .error (.failure (.lineOutOfRange p.line d.lineCount))
  else if p.line = d.lineCount then .ok d.text.length
  else do
    let start ← entry d.lineStarts p.line
    let next ← entry d.lineStarts (p.line + 1)
    pure (start + min p.character (next - 1 - start))

/-- The position of an offset. The line starts must begin at or before it. -/
def positionAt (d : Document) (offset : Int) : Except Unanswered Position :=
  let offset := Text.clamp d.text.length offset
  match countUpTo d.lineStarts offset with
  | 0 => .error .noEntry
  | line + 1 => do
    let start ← entry d.lineStarts line
    pure ⟨line, offset - start⟩

/-- Whether a position lies in the header. Where there are cells, the first span of the first one is
looked at. -/
def inHeader (d : Document) (p : Position) : Except Unanswered Bool :=
  if d.spans.isEmpty then .ok false
  else do
    let spans ← entry d.spans 0
    let first ← entry spans 0
    if first.verbatim then pure false
    else do
      let offset ← offsetAt d p
      pure (decide ((offset : Int) < first.stop))

/-! ### From the document to the cells -/

/-- The place of the cell in which an offset lies. The first span of every cell is looked at. -/
def cellIndexAt (d : Document) (offset : Nat) : Except Unanswered Nat := do
  let firsts ← d.spans.mapM fun spans ↦ entry spans 0
  pure (min (countUpTo (firsts.map Span.start) (offset : Int) - 1) (d.spans.length - 1))

/-- The cell and the offset in it that a position means. -/
def notebookOffsetAt (d : Document) (p : Position) : Except Unanswered (String × Int) := do
  let offset ← offsetAt d p
  if d.spans.isEmpty then pure (d.uri, 0)
  else do
    let i ← cellIndexAt d offset
    let c ← entry d.cells i
    let spans ← entry d.spans i
    let real ← unchecked (Span.toReal spans offset)
    pure (c.uri, min real c.text.length)

/-- The range of a cell that a range of the document means. -/
def notebookLocationAt (d : Document) (r : Range) : Except Unanswered Location := do
  let (uri, start) ← notebookOffsetAt d r.start
  match d.cells.cell? uri with
  | none => pure ⟨d.uri, ⟨⟨0, 0⟩, ⟨0, 0⟩⟩⟩
  | some c =>
    let (stopUri, stop) ← notebookOffsetAt d r.stop
    let stop : Int := if stopUri = uri then stop else c.text.length
    pure ⟨uri, ⟨c.positionAt start, c.positionAt (max stop start)⟩⟩

/-! ### From the cells to the document -/

/-- A cell and its spans. -/
def lookUp (d : Document) (uri : String) : Except Unanswered (Cell × List Span) :=
  match d.cells.indexOf? uri with
  | none => .error (.failure (.cellNotFound uri))
  | some i => do
    let c ← entry d.cells i
    let spans ← entry d.spans i
    pure (c, spans)

/-- The spans of a cell. -/
def spansAt (d : Document) (uri : String) : Except Unanswered (List Span) := do
  let (_, spans) ← lookUp d uri
  pure spans

/-- The document offset that a position in a cell means. -/
def syntheticAt (c : Cell) (spans : List Span) (p : Position) : Except Unanswered Int := do
  let real ← unchecked (c.offsetAt p)
  unchecked (Span.toSynthetic spans real)

/-- The position of the document that the start of a location in a cell means. -/
def positionOf (d : Document) (l : Location) : Except Unanswered Position := do
  let (c, spans) ← lookUp d l.uri
  let offset ← syntheticAt c spans l.range.start
  positionAt d offset

/-- The range of the document that a location in a cell means. -/
def rangeOf (d : Document) (l : Location) : Except Unanswered Range := do
  let (c, spans) ← lookUp d l.uri
  let start ← syntheticAt c spans l.range.start
  let stop ← syntheticAt c spans l.range.stop
  let first ← positionAt d start
  let last ← positionAt d (max start stop)
  pure ⟨first, last⟩

end Document.Checked

end CellStitch
