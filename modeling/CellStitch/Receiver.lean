import CellStitch.Event
/-!
# The receiving side

A server that keeps a copy of every document it was told to open, and carries out what it is told.
It knows nothing of cells. `Receiver.receive` has no result where a notification breaks the rules: a
document is opened twice, a document is changed or closed that is not open, a version is skipped, or
an edit does not fit.
-/

namespace CellStitch

/-- Carries edits out one after another, each on what the ones before it left. -/
def Edit.applyAll (t : Text) : List Edit → Option Text
  | [] => some t
  | e :: edits => (e.applyTo t).bind fun t ↦ Edit.applyAll t edits

namespace Receiver

/-- The copy of a document. -/
structure Copy where
  version : Nat
  text : Text
  deriving DecidableEq, Repr

/-- Carries an update out. Its version must be the next one. -/
def Copy.update? (c : Copy) (u : Update) : Option Copy :=
  if u.version = c.version + 1 then (Edit.applyAll c.text u.edits).map (⟨u.version, ·⟩) else none

end Receiver

/-- The copies of a server, by the URIs of the documents. -/
abbrev Receiver := String → Option Receiver.Copy

namespace Receiver

/-- A server that has not opened anything. -/
def empty : Receiver := fun _ ↦ none

/-- The copies with one of them replaced, opened or closed. -/
def set (r : Receiver) (uri : String) (c : Option Copy) : Receiver :=
  fun u ↦ if u = uri then c else r u

/-- The copies after a notification. -/
def receive (r : Receiver) : Notification → Option Receiver
  | .didOpen uri _ version text =>
    match r uri with
    | some _ => none
    | none => some (r.set uri (some ⟨version, text⟩))
  | .didChange u =>
    match r u.uri with
    | none => none
    | some c => (c.update? u).map fun c ↦ r.set u.uri (some c)
  | .didClose uri =>
    match r uri with
    | none => none
    | some _ => some (r.set uri none)

/-- The copies after what an event of the workspace led to, which may be nothing. -/
def receive? (r : Receiver) : Option Notification → Option Receiver
  | none => some r
  | some n => r.receive n

end Receiver

end CellStitch
