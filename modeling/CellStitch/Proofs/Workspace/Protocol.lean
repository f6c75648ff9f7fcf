import CellStitch.Proofs.Document.Cells
import CellStitch.Proofs.Run
import CellStitch.Proofs.Workspace.InStep
import CellStitch.Workspace.Run
/-!
# What the server is told

A server that starts with nothing and is told of the events of a run can carry everything out, and
has the documents of the workspace after each event (`receiveAll_eq_some`): it never has to open a
document twice, or to change or close one that is not open, and the versions are consecutive.

Each handler gets a document, hands the event to it, and ends in one of the ways that `InStep`
knows. What it does to the owners of cells does not matter.
-/

namespace CellStitch

/-- The copies after what several events led to. -/
def Receiver.receiveAll (r : Receiver) : List (Option Notification) → Option Receiver
  | [] => some r
  | n :: sent => (r.receive? n).bind fun r ↦ r.receiveAll sent

namespace Workspace

/-! ### The events -/

/-- A server can carry out what an outcome tells it, and is in step with the workspace then. Nothing
is said about an outcome that is a failure. -/
def Follows (r : Receiver) (outcome : Workspace × Except Failure (Option Notification)) : Prop :=
  ∀ sent, outcome.2 = .ok sent → ∃ r', r.receive? sent = some r' ∧ outcome.1.InStep r'

theorem follows_error (r : Receiver) (w : Workspace) (f : Failure) : Follows r (w, .error f) := by
  intro sent h
  cases h

/-- An event that succeeds is followed if the receiver takes the notification and is in step behind
it. -/
theorem follows_done {r : Receiver} {outcome : Workspace × Option Notification}
    (h : ∃ r', r.receive? outcome.2 = some r' ∧ outcome.1.InStep r') :
    Follows r (done outcome) := by
  intro sent hsent
  obtain rfl := Except.ok.inj hsent
  exact h

/-- What changes only the owners of cells, cell by cell, leaves the documents. -/
theorem foldl_owners {f : Workspace → String → Workspace}
    (hf : ∀ w uri, (f w uri).documents = w.documents ∧ (f w uri).opened = w.opened)
    (uris : List String) (w : Workspace) :
    (uris.foldl f w).documents = w.documents ∧ (uris.foldl f w).opened = w.opened := by
  induction uris generalizing w with
  | nil => exact ⟨rfl, rfl⟩
  | cons uri uris ih =>
    obtain ⟨hdocuments, hopened⟩ := ih (f w uri)
    obtain ⟨hdocuments', hopened'⟩ := hf w uri
    exact ⟨hdocuments.trans hdocuments', hopened.trans hopened'⟩

theorem putIn_refresh (w : Workspace) {d d' : Document} (huri : d'.uri = d.uri) (notebook : String)
    (uris uris' : List String) :
    w.PutIn d' (uris'.foldl (fun w cell ↦ w.setOwner notebook cell)
      ((uris.foldl dropOwner (w.put d)).put d')) := by
  obtain ⟨hset, hset'⟩ := foldl_owners (f := fun w cell ↦ w.setOwner notebook cell)
    (fun _ _ ↦ ⟨rfl, rfl⟩) uris' ((uris.foldl dropOwner (w.put d)).put d')
  obtain ⟨hdrop, hdrop'⟩ := foldl_owners (f := dropOwner) (fun _ _ ↦ ⟨rfl, rfl⟩) uris (w.put d)
  refine ⟨?_, hset'.trans hdrop'⟩
  rw [hset, documents_put_congr hdrop, documents_put_put huri]

/-- Only the owners of cells change once a refreshed document is put in. -/
theorem awaits_of_destination {w : Workspace} {c : Cell} {notebook : Option String}
    {notebook' : String} {d : Document}
    (h : w.destination c notebook = .ok (some (notebook', d))) : w.Awaits d :=
  awaits_of_documentOrNew (destination_eq_some h).2

theorem mem_of_documentFor {w : Workspace} {uri : String} {d : Document}
    (h : w.documentFor uri = .ok (some d)) : d ∈ w.documents := by
  obtain ⟨document, -, h⟩ := bind_eq_ok_iff.1 h
  exact (mem_of_document?_eq_some (Except.ok.inj h)).1

namespace InStep

variable {w : Workspace} {r : Receiver} (h : w.InStep r)
include h

/-- Nothing happens, and nothing is told. -/
theorem follows_none {w' : Workspace} (hdocuments : w'.documents = w.documents)
    (hopened : w'.opened = w.opened) : Follows r (w', .ok none) := by
  intro sent hsent
  obtain rfl := Except.ok.inj hsent
  exact ⟨r, rfl, h.congr hdocuments hopened⟩

theorem soundStep {d d' : Document} (hd : w.Awaits d) {e : Event} {update : Option Update}
    (hstep : d.handle e = (d', .ok update)) : d.SoundStep update d' :=
  (h.settled_of_awaits hd).soundStep_of_handle hstep

/-- Opening a cell is followed: nothing is sent for a cell that no document takes, and else what its
document sends. -/
theorem openCell (c : Cell) (notebook : Option String) : Follows r (w.openCell c notebook) := by
  unfold Workspace.openCell
  split
  · exact follows_error r w _
  · exact h.follows_none rfl rfl
  · rename_i notebook' d hdestination
    have hawaits := awaits_of_destination hdestination
    split
    · exact follows_error r _ _
    · rename_i d' update hstep
      have hopen : d.openCell c = .ok (d', update) := Document.eq_ok_of_orKeep hstep
      refine follows_done ?_
      rcases Decidable.em (d'.cells = []) with hcells | hcells
      · -- a new document that did not take the cell
        have htaken := Document.cells_ne_nil_of_openCell hopen
        obtain ⟨rfl, rfl⟩ := Prod.mk.inj (htaken.resolve_right fun hne ↦ hne hcells)
        cases hawaits with
        | kept hd => exact absurd hcells (h.cells_ne_nil d' hd)
        | fresh hnone _ _ =>
          have hnot : ¬ d'.cells.has c.uri = true := by
            rw [hcells]
            exact Bool.false_ne_true
          rw [if_neg hnot, if_pos (List.isEmpty_iff.2 hcells)]
          exact ⟨r, rfl, h.drop_of_fresh hnone (putIn_put w d')⟩
      · refine h.send hawaits (h.soundStep hawaits hstep) hcells ?_
        split
        · exact ⟨rfl, rfl⟩
        · rw [if_neg (fun hempty ↦ hcells (List.isEmpty_iff.1 hempty))]
          exact putIn_put w d'

/-- A change is followed in the document that the cell is noted for. -/
theorem changeCell (uri : String) (version : Int) (edits : List Edit) :
    Follows r (w.changeCell uri version edits) := by
  unfold Workspace.changeCell
  split
  · exact follows_error r w _
  · exact h.follows_none rfl rfl
  · rename_i d hfound
    have hd := mem_of_documentFor hfound
    split
    · exact follows_error r _ _
    · rename_i d' update hstep
      have hcells : d'.cells ≠ [] := by
        have huris := (h.settled d hd).cellUris_changeCell uri version edits
        have hd' : (d.changeCell uri version edits).1 = d' := congrArg Prod.fst hstep
        rw [hd'] at huris
        rw [Ne, Document.cells_eq_nil_iff_cellUris, huris, ← Document.cells_eq_nil_iff_cellUris]
        exact h.cells_ne_nil d hd
      exact follows_done (h.send (.kept hd) (h.soundStep (.kept hd) hstep) hcells (putIn_put w d'))

/-- Closing a cell is followed, and so is the end of a document that had no other cell. -/
theorem closeCell (uri : String) : Follows r (w.closeCell uri) := by
  unfold Workspace.closeCell
  split
  · exact follows_error r w _
  · exact h.follows_none rfl rfl
  · rename_i d hfound
    have hawaits : w.Awaits d := .kept (mem_of_documentFor hfound)
    rcases hstep : d.handle (.closed uri) with ⟨d', f | update⟩
    · exact follows_error r _ f
    · exact follows_done (h.sendOrDispose hawaits (h.soundStep hawaits hstep) ⟨rfl, rfl⟩)

/-- A refresh is followed, also one that leaves the document without cells. -/
theorem refresh (notebook : String) (cells : List Cell) :
    Follows r (w.refresh notebook cells) := by
  unfold Workspace.refresh
  split
  · exact follows_error r w _
  · rename_i d hd
    have hawaits := awaits_of_documentOrNew hd
    rcases hstep : d.handle (.refreshed cells) with ⟨d', f | update⟩
    · exact follows_error r _ f
    · have hsound := h.soundStep hawaits hstep
      exact follows_done (h.sendOrDispose hawaits hsound
        (putIn_refresh w hsound.sameSetup.uri_eq notebook d.cellUris d'.cellUris))

/-- **One event**: a server that is in step can carry out what it is told, and is in step again. -/
theorem handle (e : WorkspaceEvent) : Follows r (w.handle e) := by
  cases e with
  | opened c notebook => exact h.openCell c notebook
  | changed uri version edits => exact h.changeCell uri version edits
  | closed uri => exact h.closeCell uri
  | refreshed notebook cells => exact h.refresh notebook cells

end InStep

/-! ### Runs -/

/-- **A run**: a server that is in step stays so, and can carry out all that it is told. -/
theorem InStep.runAll? {w w' : Workspace} {events : List WorkspaceEvent}
    {sent : List (Option Notification)} {r : Receiver} (hr : w.InStep r)
    (h : w.runAll? events = .ok (w', sent)) :
    ∃ r', r.receiveAll sent = some r' ∧ w'.InStep r' := by
  induction events generalizing w r sent with
  | nil =>
    cases h
    exact ⟨r, rfl, hr⟩
  | cons e events ih =>
    obtain ⟨w₁, n, rest, hstep, hrest, rfl⟩ := runAll?_cons_eq_ok_iff.1 h
    have hfollows := hr.handle e
    rw [hstep] at hfollows
    obtain ⟨r₁, hreceive, hr₁⟩ := hfollows n rfl
    obtain ⟨r', hreceive', hr'⟩ := ih hr₁ hrest
    refine ⟨r', ?_, hr'⟩
    rw [Receiver.receiveAll, hreceive, Option.bind_some, hreceive']

/-- **The server has the documents of the workspace**, after every event of a run in which none
fails: it can carry out what it is told, the documents that are open there are those of the
workspace, each of them has cells, and their texts and versions are the same on both sides. -/
theorem receiveAll_eq_some {settings : Settings} {events : List WorkspaceEvent} {w : Workspace}
    {sent : List (Option Notification)}
    (h : (Workspace.new settings).runAll? events = .ok (w, sent)) (k : Nat) :
    ∃ wₖ r, (Workspace.new settings).runAll? (events.take k) = .ok (wₖ, sent.take k) ∧
      Receiver.empty.receiveAll (sent.take k) = some r ∧
      (wₖ.documents.map Document.uri).Nodup ∧
      (∀ uri, (r uri).isSome ↔ uri ∈ wₖ.documents.map Document.uri) ∧
      ∀ d ∈ wₖ.documents, d.cells ≠ [] ∧ r d.uri = some ⟨d.version, d.text⟩ := by
  obtain ⟨wₖ, hk⟩ := runAll?_take h k
  obtain ⟨r, hreceive, hr⟩ := (InStep.new settings).runAll? hk
  refine ⟨wₖ, r, hk, hreceive, hr.distinct, ?_, ?_⟩
  · intro uri
    rw [hr.copy_eq, Option.isSome_map, isSome_document?_iff]
  · intro d hd
    exact ⟨hr.cells_ne_nil d hd, hr.copy_eq_some hd⟩

/-- A cell that is not taken, an annotation that appears, and a document that is closed with its
last cell and opened again. -/
theorem receiveAll_eq_some_reopened :
    let events : List WorkspaceEvent :=
      [.opened ⟨"vscode-notebook-cell://h/n.ipynb#a", "python", 1, "x = 1".toList⟩ none,
        .opened ⟨"vscode-notebook-cell://h/m.ipynb#a", "markdown", 1, "x".toList⟩ none,
        .changed "vscode-notebook-cell://h/n.ipynb#a" 2 [.whole "%run".toList],
        .closed "vscode-notebook-cell://h/n.ipynb#a",
        .refreshed "vscode-notebook://h/n.ipynb"
          [⟨"vscode-notebook-cell://h/n.ipynb#b", "python", 1, []⟩]]
    ∃ w sent r, (Workspace.new Settings.default).runAll? events = .ok (w, sent) ∧
      Receiver.empty.receiveAll sent = some r ∧
      ∀ d ∈ w.documents, d.cells ≠ [] ∧ r d.uri = some ⟨d.version, d.text⟩ := by
  intro events
  obtain ⟨⟨w, sent⟩, hrun⟩ : ∃ x, (Workspace.new Settings.default).runAll? events = .ok x :=
    ⟨_, rfl⟩
  obtain ⟨wₖ, r, hk, hreceive, -, -, hdocuments⟩ :=
    receiveAll_eq_some hrun (events.length + sent.length)
  rw [List.take_of_length_le (Nat.le_add_left _ _)] at hk hreceive
  rw [List.take_of_length_le (Nat.le_add_right _ _), hrun] at hk
  cases hk
  exact ⟨w, sent, r, hrun, hreceive, hdocuments⟩

end Workspace

end CellStitch
