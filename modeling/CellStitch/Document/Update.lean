import CellStitch.Document.Query
/-!
# Documents and events

How a document follows its cells, and what the server is told. An opened, closed or refreshed cell
has the document rebuilt; an edit of a cell lays out that cell alone, moves the spans behind it and
splices the text.

An edit of a cell is passed on as it is, unless an annotation appeared or vanished with it; then the
cell's part of the document is replaced as a whole. `Document.handle` returns the document also when
it fails: the edits before a failing one stay.
-/

namespace CellStitch.Document

/-- Whether a document takes a cell: one of its language, or an input box. -/
def accepts (d : Document) (c : Cell) : Except Failure Bool :=
  if d.settings.language.isText c.language then .ok true else c.isInput

/-- Whether a document takes each of some cells. -/
def accepted (d : Document) : List Cell → Except Failure CellList
  | [] => .ok []
  | c :: cells => do
    let taken ← d.accepts c
    let rest ← d.accepted cells
    pure (if taken then c :: rest else rest)

/-- The document and the update that it sends for some edits. Without edits there is none, and the
version stays. -/
def emit (d : Document) (edits : List Edit) : Document × Option Update :=
  if edits.isEmpty then (d, none)
  else ({ d with version := d.version + 1 }, some ⟨d.uri, d.version + 1, edits⟩)

/-! ### Opening, closing, refreshing -/

/-- The document with other cells, and the smallest edit that leads there. -/
def withCells (d : Document) (cells : CellList) : Except Failure (Document × Option Update) := do
  let rebuilt ← { d with cells := cells }.rebuild
  pure (rebuilt.emit (Edit.between d.text rebuilt.text).toList)

/-- A cell was opened. -/
def openCell (d : Document) (c : Cell) : Except Failure (Document × Option Update) := do
  if ← d.accepts c then
    let (_, cells) ← d.cells.openCell c
    d.withCells cells
  else pure (d, none)

/-- A cell was closed. -/
def closeCell (d : Document) (uri : String) : Except Failure (Document × Option Update) :=
  match d.cells.closeCell uri with
  | none => .ok (d, none)
  | some (_, cells) => d.withCells cells

/-- The cells are these, in this order. The text is sent as a whole. -/
def refresh (d : Document) (cells : List Cell) : Except Failure (Document × Option Update) := do
  let taken ← d.accepted cells
  let cells ← d.cells.replaceAll taken
  let rebuilt ← { d with cells := cells }.rebuild
  pure (rebuilt.emit (if rebuilt.text = d.text then [] else [.whole rebuilt.text]))

/-! ### Editing -/

/-- The offsets in a cell that an edit replaces. -/
def editedOffsets (c : Cell) : Edit → Except Failure (Nat × Nat)
  | .whole _ => .ok (0, c.text.length)
  | .ranged r _ => do
    let start ← c.offsetAt r.start
    let stop ← c.offsetAt r.stop
    if start ≤ stop then pure (start, stop) else .error (.invertedEdit r c.uri)

/-- Carries out one edit of a cell, and returns the edit of the document that goes with it. -/
def editCell (d : Document) (uri : String) (version : Int) (e : Edit) :
    Except Failure (Document × Edit) := do
  match d.cells.indexOf? uri with
  | none => .error (.cellNotOpen uri)
  | some i =>
    let (c, old) ← d.lookUp uri
    let cellStart := Span.startOf old
    let cellStop := Span.stopOf old
    let (realStart, realStop) ← editedOffsets c e
    let start ← Span.toSynthetic old realStart
    let stop ← Span.toSynthetic old realStop
    let (edited, cells) ← d.cells.edit uri realStart realStop e.text version
    let new ← d.spansOf edited cellStart
    let oldPart : Text := (d.text.drop cellStart.toNat).take (cellStop - cellStart).toNat
    let newPart := Span.textOf new
    let spliced := oldPart.splice (start - cellStart).toNat (stop - cellStart).toNat e.text
    let passedOn :=
      if spliced = newPart then Edit.ranged ⟨d.positionAt start, d.positionAt stop⟩ e.text
      else Edit.ranged ⟨d.positionAt cellStart, d.positionAt cellStop⟩ newPart
    let delta : Int := newPart.length - (cellStop - cellStart)
    let later := (d.spans.drop (i + 1)).map fun spans ↦ spans.map fun s ↦ s.shift delta
    let edited : Document :=
      { d with cells := cells, spans := d.spans.take i ++ new :: later }
    pure (edited.setText (d.text.splice cellStart.toNat cellStop.toNat newPart), passedOn)

/-- Carries out edits of a cell one after another, up to the first that fails. -/
def editCells (d : Document) (uri : String) (version : Int) :
    List Edit → Document × Except Failure (List Edit)
  | [] => (d, .ok [])
  | e :: edits =>
    match d.editCell uri version e with
    | .error f => (d, .error f)
    | .ok (d, passedOn) =>
      let (d, rest) := d.editCells uri version edits
      (d, rest.map (passedOn :: ·))

/-- The text of a cell was edited. A change of a cell that is not open, or that brings no higher
version, does nothing. -/
def changeCell (d : Document) (uri : String) (version : Int) (edits : List Edit) :
    Document × Except Failure (Option Update) :=
  match d.cells.cell? uri with
  | none => (d, .ok none)
  | some c =>
    if version ≤ c.version then (d, .ok none)
    else
      match d.editCells uri version edits with
      | (d, .error f) => (d, .error f)
      | (d, .ok passedOn) =>
        let (d, update) := d.emit passedOn
        (d, .ok update)

/-! ### All events -/

/-- What comes of a step that changes nothing when it fails. -/
def orKeep (d : Document) {α : Type} :
    Except Failure (Document × α) → Document × Except Failure α
  | .error f => (d, .error f)
  | .ok (d, a) => (d, .ok a)

/-- The document after an event, and the update that the server is to be sent. -/
def handle (d : Document) : Event → Document × Except Failure (Option Update)
  | .opened c => d.orKeep (d.openCell c)
  | .changed uri version edits => d.changeCell uri version edits
  | .closed uri => d.orKeep (d.closeCell uri)
  | .refreshed cells => d.orKeep (d.refresh cells)

end CellStitch.Document
