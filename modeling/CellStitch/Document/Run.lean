import CellStitch.Document.Update
import CellStitch.Run
/-!
# Runs of a document

The documents that arise from events. A run goes on over events that fail; `Document.runAll?`
follows a run in which none fails, and keeps what was sent.
-/

namespace CellStitch.Document

/-- The document after events, whether or not they failed. -/
def run (d : Document) (events : List Event) : Document :=
  events.foldl (fun d e ↦ (d.handle e).1) d

/-- The document after events of which none fails, and what each of them sent. -/
abbrev runAll? (d : Document) (events : List Event) :
    Except Failure (Document × List (Option Update)) :=
  CellStitch.runAll? Document.handle d events

/-- The documents that arise from a new one by events. -/
inductive Reachable : Document → Prop where
  | new {uri : String} {settings : Settings} {d : Document}
    (h : Document.new uri settings = .ok d) : Reachable d
  | handle {d : Document} (h : Reachable d) (e : Event) : Reachable (d.handle e).1

theorem Reachable.run {d : Document} (h : Reachable d) (events : List Event) :
    Reachable (d.run events) := by
  induction events generalizing d with
  | nil => exact h
  | cons e events ih => exact ih (h.handle e)

end CellStitch.Document
