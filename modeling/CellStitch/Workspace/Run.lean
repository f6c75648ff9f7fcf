import CellStitch.Receiver
import CellStitch.Run
import CellStitch.Workspace.Basic
/-!
# Runs of a workspace

The workspaces that arise from events. A run goes on over events that fail; `Workspace.runAll?`
follows a run in which none fails, together with the server that is told of it.
-/

namespace CellStitch.Workspace

/-- The workspace after events, whether or not they failed. -/
def run (w : Workspace) (events : List WorkspaceEvent) : Workspace :=
  events.foldl (fun w e ↦ (w.handle e).1) w

/-- The outcomes of events one after another, whether or not they failed. -/
def outcomes (w : Workspace) :
    List WorkspaceEvent → List (Except Failure (Option Notification))
  | [] => []
  | e :: events => (w.handle e).2 :: (w.handle e).1.outcomes events

/-- The workspace after events of which none fails, and what each of them sent. -/
abbrev runAll? (w : Workspace) (events : List WorkspaceEvent) :
    Except Failure (Workspace × List (Option Notification)) :=
  CellStitch.runAll? Workspace.handle w events

/-- The workspaces that arise from a new one by events. -/
inductive Reachable : Workspace → Prop where
  | new (settings : Settings) : Reachable (Workspace.new settings)
  | handle {w : Workspace} (h : Reachable w) (e : WorkspaceEvent) : Reachable (w.handle e).1

theorem Reachable.run {w : Workspace} (h : Reachable w) (events : List WorkspaceEvent) :
    Reachable (w.run events) := by
  induction events generalizing w with
  | nil => exact h
  | cons e events ih => exact ih (h.handle e)

end CellStitch.Workspace
