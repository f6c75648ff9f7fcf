import CellStitch.Cell.Basic
import CellStitch.Edit
import CellStitch.Value.Literal
/-!
# Events and notifications

Events tell what happened to cells; notifications tell a server what happened to a document. Events
arrive as messages of a client (`Event.ofMessage`).
-/

namespace CellStitch

/-- What happened to cells. -/
inductive Event where
  /-- A cell was opened, or opened again. -/
  | opened (cell : Cell)
  /-- The text of a cell was edited, by several edits one after another. -/
  | changed (uri : String) (version : Int) (edits : List Edit)
  /-- A cell was closed. -/
  | closed (uri : String)
  /-- The cells are these, in this order. -/
  | refreshed (cells : List Cell)
  deriving Repr

/-- What a client sends. -/
inductive Message where
  | didOpen (cell : Cell)
  | didChange (uri : String) (version : Int) (edits : List Edit)
  | didClose (uri : String)
  /-- A place in a text, which tells nothing about what happened. -/
  | position (place : Position)
  deriving Repr

namespace Event

/-- The event that a message tells. Versions must fit the wire. -/
def ofMessage : Message → Except Failure Event
  | .didOpen cell =>
    if isWireVersion cell.version then .ok (.opened cell) else .error .versionOutOfRange
  | .didChange uri version edits =>
    if isWireVersion version then .ok (.changed uri version edits) else .error .versionOutOfRange
  | .didClose uri => .ok (.closed uri)
  | .position _ => .error (.unsupportedMessage "Position")

/-- The refresh by a snapshot of cells. Versions must fit the wire. -/
def ofSnapshot (cells : List Cell) : Except Failure Event :=
  if cells.all fun c ↦ isWireVersion c.version then .ok (.refreshed cells)
  else .error .versionOutOfRange

/-- No plain value is an event. -/
def ofValue (v : Value) : Except Failure Event := .error (.notAnEvent v.shown)

end Event

/-- The edits of one change of a document, to be carried out one after another. -/
structure Update where
  uri : String
  version : Nat
  edits : List Edit
  deriving DecidableEq, Repr

/-- What a server is told about a document. -/
inductive Notification where
  | didOpen (uri language : String) (version : Nat) (text : Text)
  | didChange (update : Update)
  | didClose (uri : String)
  deriving DecidableEq, Repr

end CellStitch
