import CellStitch.Proofs.Workspace.Scope
import CellStitch.Workspace.Run
/-!
# Notebooks do not interfere

Two runs that name no cell in common, and reach no document in common, may be interleaved in any
way: each event of the first comes to what it comes to in the first run alone, and the documents
that the first run reaches are those of the first run alone (`outcomes_interleaved`). Events that
fail are no exception.

An event that a scope admits does in a workspace what it does in the part of the workspace that
belongs to the scope, and is not seen in any other scope (`Within.handle`). The rest is an induction
over the run (`Within.interleaved`).
-/

namespace CellStitch

/-! ### What an event may reach -/

namespace WorkspaceEvent

/-- The URIs of the cells that an event names. -/
def cellUris : WorkspaceEvent → List String
  | .opened c _ => [c.uri]
  | .changed uri _ _ => [uri]
  | .closed uri => [uri]
  | .refreshed _ cells => cells.map Cell.uri

/-- The notebooks that an event names. -/
def notebooks : WorkspaceEvent → List String
  | .opened _ notebook => notebook.toList
  | .changed _ _ _ => []
  | .closed _ => []
  | .refreshed notebook _ => [notebook]

/-- The URIs of the documents that an event may reach: those of the notebooks that it names, and
those of the notebooks that the URIs of its cells tell. -/
def documentUris (e : WorkspaceEvent) : List String :=
  (e.notebooks.map documentOf ++ e.cellUris.map fun cell ↦ notebookOf cell >>= documentOf).filterMap
    Except.toOption

end WorkspaceEvent

namespace Scope

/-- A scope has the notebooks and the cells that an event names. -/
structure Admits (s : Scope) (e : WorkspaceEvent) : Prop where
  notebook : ∀ notebook ∈ e.notebooks, s.HasNotebook notebook
  cell : ∀ cell ∈ e.cellUris, s.HasCell cell

/-- All cells of an event that a scope admits lie in the scope. -/
theorem Admits.mem_cells {s : Scope} {e : WorkspaceEvent} (h : s.Admits e) :
    ∀ cell ∈ e.cellUris, cell ∈ s.cells :=
  fun cell hcell ↦ (h.cell cell hcell).mem

/-- The documents that events may reach, and the cells that they name. -/
def ofEvents (events : List WorkspaceEvent) : Scope :=
  ⟨events.flatMap WorkspaceEvent.documentUris, events.flatMap WorkspaceEvent.cellUris⟩

/-- The scope of some events admits each of them. -/
theorem admits_ofEvents {events : List WorkspaceEvent} {e : WorkspaceEvent} (he : e ∈ events) :
    (ofEvents events).Admits e := by
  have hmem : ∀ uri, .ok uri ∈ (e.notebooks.map documentOf ++
      e.cellUris.map fun cell ↦ notebookOf cell >>= documentOf) →
      uri ∈ (ofEvents events).documents :=
    fun uri h ↦ List.mem_flatMap.2 ⟨e, he, List.mem_filterMap.2 ⟨.ok uri, h, rfl⟩⟩
  refine ⟨?_, ?_⟩
  · intro notebook hnotebook uri huri
    exact hmem uri (List.mem_append_left _ (List.mem_map.2 ⟨notebook, hnotebook, huri⟩))
  · intro cell hcell
    refine ⟨List.mem_flatMap.2 ⟨e, he, hcell⟩, fun notebook hnotebook uri huri ↦ ?_⟩
    have htold : (notebookOf cell >>= documentOf) = .ok uri :=
      bind_eq_ok_iff.2 ⟨notebook, hnotebook, huri⟩
    exact hmem uri (List.mem_append_right _ (List.mem_map.2 ⟨cell, hcell, htold⟩))

end Scope

namespace Workspace

/-! ### Finding documents in a scope -/

section Find

variable {w : Workspace} {s : Scope} {d : Document} {cell notebook : String}

/-- The document of a notebook of the scope is the same in the restriction, and a new one is new in
both. -/
theorem documentOrNew_restrict (hnotebook : s.HasNotebook notebook) :
    (w.restrict s).documentOrNew notebook = w.documentOrNew notebook := by
  rw [documentOrNew, documentOrNew]
  rcases huri : documentOf notebook with f | uri
  · rfl
  · rw [ok_bind, ok_bind, document?_restrict w (hnotebook uri huri)]
    rfl

/-- The document that a cell of the scope is noted for is the same in the restriction. -/
theorem documentUriFor_restrict (hcell : cell ∈ s.cells) :
    (w.restrict s).documentUriFor cell = w.documentUriFor cell := by
  rw [documentUriFor, documentUriFor, notebookFor, notebookFor, lookup_restrict w hcell]

namespace Within

variable (hw : w.Within s)
include hw

/-- The document of a notebook of the scope lies in the scope. -/
theorem has_of_documentOrNew (hnotebook : s.HasNotebook notebook)
    (h : w.documentOrNew notebook = .ok d) : s.Has d := by
  obtain ⟨uri, huri, h⟩ := bind_eq_ok_iff.1 h
  have hmem := hnotebook uri huri
  rcases hfound : w.document? uri with - | e <;> rw [hfound] at h
  · obtain ⟨hd, hcells, -, -, rfl⟩ := Document.settled_of_new h
    exact ⟨hmem, hd, by simp [Document.cellUris, hcells]⟩
  · obtain rfl := Except.ok.inj h
    obtain ⟨he, rfl⟩ := mem_of_document?_eq_some hfound
    exact hw.has e he hmem

/-- The document of a cell is that of its owner, or the one that its URI tells. -/
theorem mem_of_documentUriFor (hcell : s.HasCell cell) {uri : String}
    (h : w.documentUriFor cell = .ok uri) : uri ∈ s.documents := by
  obtain ⟨notebook, hnotebook, huri⟩ := bind_eq_ok_iff.1 h
  rw [notebookFor] at hnotebook
  rcases howner : w.owners.lookup cell with - | owner <;> rw [howner] at hnotebook
  · exact hcell.notebook notebook hnotebook uri huri
  · dsimp only at hnotebook
    split at hnotebook
    · exact hcell.notebook notebook hnotebook uri huri
    · obtain rfl := Except.ok.inj hnotebook
      obtain ⟨front, back, howners, -⟩ := List.lookup_eq_some_iff.1 howner
      have hmem : (cell, owner) ∈ w.owners := by
        rw [howners]
        exact List.mem_append_right front List.mem_cons_self
      exact hw.owner _ hmem hcell.mem uri huri

/-- A cell of the scope is looked up in the same document. -/
theorem documentFor_restrict (hcell : s.HasCell cell) :
    (w.restrict s).documentFor cell = w.documentFor cell := by
  rw [documentFor, documentFor, documentUriFor_restrict hcell.mem]
  rcases huri : w.documentUriFor cell with f | uri
  · rfl
  · rw [ok_bind, ok_bind, document?_restrict w (hw.mem_of_documentUriFor hcell huri)]

/-- The document of a cell of the scope lies in the scope. -/
theorem has_of_documentFor (hcell : s.HasCell cell) (h : w.documentFor cell = .ok (some d)) :
    s.Has d := by
  obtain ⟨uri, huri, h⟩ := bind_eq_ok_iff.1 h
  obtain ⟨hd, rfl⟩ := mem_of_document?_eq_some (Except.ok.inj h)
  exact hw.has d hd (hw.mem_of_documentUriFor hcell huri)

end Within

/-- A cell of the scope is opened in a notebook of the scope. -/
theorem hasNotebook_of_openedIn {c : Cell} {given : Option String}
    (hadmits : s.Admits (.opened c given)) (h : openedIn c given = .ok notebook) :
    s.HasNotebook notebook := by
  have htold := (hadmits.cell c.uri List.mem_cons_self).notebook
  rcases given with - | given
  · exact htold notebook h
  · rw [openedIn] at h
    split at h
    · exact htold notebook h
    · obtain rfl := Except.ok.inj h
      exact hadmits.notebook given List.mem_cons_self

/-- A cell of the scope goes to the same document. -/
theorem destination_restrict {c : Cell} {given : Option String}
    (hadmits : s.Admits (.opened c given)) :
    (w.restrict s).destination c given = w.destination c given := by
  rw [destination_eq, destination_eq]
  rcases hopened : openedIn c given with f | notebook
  · rfl
  · simp only [ok_bind, documentOrNew_restrict (hasNotebook_of_openedIn hadmits hopened)]

end Find

/-! ### Events in a scope -/

namespace Within

variable {w : Workspace} {s : Scope} (hw : w.Within s)
include hw

/-- Where nothing happens, the outcomes agree. -/
theorem agreesIn_refl (x : Except Failure (Option Notification)) :
    AgreesIn s w (w, x) (w.restrict s, x) :=
  ⟨.refl hw, rfl⟩

/-- Opening a cell of the scope does the same in the restriction. -/
theorem openCell {c : Cell} {given : Option String} (hadmits : s.Admits (.opened c given)) :
    AgreesIn s w (w.openCell c given) ((w.restrict s).openCell c given) := by
  unfold Workspace.openCell
  rw [destination_restrict hadmits]
  rcases hdestination : w.destination c given with f | _ | ⟨notebook, d⟩
  · exact hw.agreesIn_refl _
  · exact hw.agreesIn_refl _
  · obtain ⟨hopened, hfound⟩ := destination_eq_some hdestination
    have hnotebook := hasNotebook_of_openedIn hadmits hopened
    have hd' := (hw.has_of_documentOrNew hnotebook hfound).handle (.opened c) hadmits.mem_cells
    dsimp only
    rcases hstep : d.handle (.opened c) with ⟨d', f | update⟩ <;> rw [hstep] at hd'
    all_goals have hput := (ChangedIn.refl hw).put hd'
    · exact ⟨hput, rfl⟩
    · refine (ChangedIn.send ?_ hd'.uri_mem update).done
      -- the document takes the cell, or goes again if it has none
      split
      · exact hput.setOwner hnotebook (hadmits.cell c.uri List.mem_cons_self).mem
      · split
        · exact hput.drop hd'.uri_mem
        · exact hput

/-- A change of a cell of the scope does the same in the restriction. -/
theorem changeCell {uri : String} {version : Int} {edits : List Edit}
    (hadmits : s.Admits (.changed uri version edits)) :
    AgreesIn s w (w.changeCell uri version edits)
      ((w.restrict s).changeCell uri version edits) := by
  have hcell := hadmits.cell uri List.mem_cons_self
  unfold Workspace.changeCell
  rw [hw.documentFor_restrict hcell]
  rcases hfound : w.documentFor uri with f | _ | d
  · exact hw.agreesIn_refl _
  · exact hw.agreesIn_refl _
  · have hd' := (hw.has_of_documentFor hcell hfound).handle (.changed uri version edits)
      hadmits.mem_cells
    dsimp only
    rcases hstep : d.handle (.changed uri version edits) with ⟨d', f | update⟩ <;>
      rw [hstep] at hd'
    all_goals have hput := (ChangedIn.refl hw).put hd'
    · exact ⟨hput, rfl⟩
    · exact (hput.send hd'.uri_mem update).done

/-- Closing a cell of the scope does the same in the restriction. -/
theorem closeCell {uri : String} (hadmits : s.Admits (.closed uri)) :
    AgreesIn s w (w.closeCell uri) ((w.restrict s).closeCell uri) := by
  have hcell := hadmits.cell uri List.mem_cons_self
  have hforgotten := (ChangedIn.refl hw).dropOwner hcell.mem
  unfold Workspace.closeCell
  rw [hw.documentFor_restrict hcell]
  rcases hfound : w.documentFor uri with f | _ | d
  · exact hw.agreesIn_refl _
  · exact ⟨hforgotten, rfl⟩
  · have hd' := (hw.has_of_documentFor hcell hfound).handle (.closed uri) hadmits.mem_cells
    dsimp only
    rcases hstep : d.handle (.closed uri) with ⟨d', f | update⟩ <;> rw [hstep] at hd'
    all_goals have hput := hforgotten.put hd'
    · exact ⟨hput, rfl⟩
    · exact (hput.sendOrDispose hd'.uri_mem update).done

/-- A refresh of a notebook of the scope does the same in the restriction. -/
theorem refresh {notebook : String} {cells : List Cell}
    (hadmits : s.Admits (.refreshed notebook cells)) :
    AgreesIn s w (w.refresh notebook cells) ((w.restrict s).refresh notebook cells) := by
  have hnotebook := hadmits.notebook notebook List.mem_cons_self
  unfold Workspace.refresh
  rw [documentOrNew_restrict hnotebook]
  rcases hfound : w.documentOrNew notebook with f | d
  · exact hw.agreesIn_refl _
  · have hd := hw.has_of_documentOrNew hnotebook hfound
    have hd' := hd.handle (.refreshed cells) hadmits.mem_cells
    have hforgotten : ChangedIn s w (d.cellUris.foldl Workspace.dropOwner (w.put d)) _ :=
      ((ChangedIn.refl hw).put hd).foldl fun _ _ c hc h ↦ h.dropOwner (hd.cells_mem c hc)
    dsimp only
    rcases hstep : d.handle (.refreshed cells) with ⟨d', f | update⟩ <;> rw [hstep] at hd'
    all_goals have hput := hforgotten.put hd'
    · exact ⟨hput, rfl⟩
    · refine (ChangedIn.sendOrDispose ?_ hd'.uri_mem update).done
      exact hput.foldl fun _ _ c hc h ↦ h.setOwner hnotebook (hd'.cells_mem c hc)

/-- **An event that a scope admits** does in a workspace what it does in the part of the workspace
that belongs to the scope, and is not seen in any other scope. -/
theorem handle {e : WorkspaceEvent} (hadmits : s.Admits e) :
    AgreesIn s w (w.handle e) ((w.restrict s).handle e) := by
  cases e with
  | opened c given => exact hw.openCell hadmits
  | changed uri version edits => exact hw.changeCell hadmits
  | closed uri => exact hw.closeCell hadmits
  | refreshed notebook cells => exact hw.refresh hadmits

end Within

/-! ### Interleaved runs -/

/-- The events of two runs, in the order in which they come. -/
abbrev Interleaving : Type := List (WorkspaceEvent ⊕ WorkspaceEvent)

namespace Interleaving

/-- The events of the first run. -/
def first (events : Interleaving) : List WorkspaceEvent := events.filterMap Sum.getLeft?

/-- The events of the second run. -/
def second (events : Interleaving) : List WorkspaceEvent := events.filterMap Sum.getRight?

/-- The events of both runs. -/
def all (events : Interleaving) : List WorkspaceEvent := events.map (Sum.elim id id)

/-- What the events of the first run come to. -/
def firstOutcomes (w : Workspace) (events : Interleaving) :
    List (Except Failure (Option Notification)) :=
  (events.zip (w.outcomes events.all)).filterMap fun p ↦ if p.1.isLeft then some p.2 else none

end Interleaving

/-- **Two runs in disjoint scopes**, interleaved: the events of the first come to what they come to
alone, and so does what the workspace has of their scope. -/
theorem Within.interleaved {s t : Scope} (hdisjoint : s.Disjoint t) {w : Workspace}
    (hs : w.Within s) (ht : w.Within t) {events : Interleaving}
    (hfirst : ∀ e ∈ events.first, s.Admits e) (hsecond : ∀ e ∈ events.second, t.Admits e) :
    events.firstOutcomes w = (w.restrict s).outcomes events.first ∧
      (w.run events.all).restrict s = (w.restrict s).run events.first := by
  -- by the events: each one stays in its scope, and the other scope does not see it
  induction events generalizing w with
  | nil => exact ⟨rfl, rfl⟩
  | cons e events ih =>
    rcases e with e | e
    · have hfirst' : ∀ x ∈ e :: Interleaving.first events, s.Admits x := hfirst
      have hagrees := hs.handle (hfirst' e List.mem_cons_self)
      have hchanged := hagrees.changedIn
      have hother : (w.handle e).1.Within t := ht.congr (hchanged.frame t hdisjoint)
      obtain ⟨houtcomes, hrun⟩ := ih hchanged.within hother
        (fun x hx ↦ hfirst' x (List.mem_cons_of_mem e hx)) hsecond
      rw [hchanged.restrict_eq] at houtcomes hrun
      refine ⟨?_, hrun⟩
      show (w.handle e).2 :: Interleaving.firstOutcomes (w.handle e).1 events = _
      rw [houtcomes, ← hagrees.result_eq]
      rfl
    · -- an event of the second run is not seen in the scope of the first
      have hsecond' : ∀ x ∈ e :: Interleaving.second events, t.Admits x := hsecond
      have hchanged := (ht.handle (hsecond' e List.mem_cons_self)).changedIn
      have hsame := hchanged.frame s hdisjoint.symm
      obtain ⟨houtcomes, hrun⟩ := ih (hs.congr hsame) hchanged.within hfirst
        fun x hx ↦ hsecond' x (List.mem_cons_of_mem e hx)
      rw [hsame] at houtcomes hrun
      exact ⟨houtcomes, hrun⟩

/-- **Notebooks do not interfere.** Of two runs that name no cell in common and reach no document in
common, interleaved in any way, each event of the first comes to what it comes to in the first run
alone, also if it fails. Each document that the first run may reach is in the end what it is after
the first run alone. -/
theorem outcomes_interleaved (settings : Settings) {first second : List WorkspaceEvent}
    {events : Interleaving} (hfirst : events.first = first) (hsecond : events.second = second)
    (hcells : ∀ e ∈ first, ∀ e' ∈ second, ∀ cell ∈ e.cellUris, cell ∉ e'.cellUris)
    (hdocuments : ∀ e ∈ first, ∀ e' ∈ second, ∀ uri ∈ e.documentUris, uri ∉ e'.documentUris) :
    events.firstOutcomes (Workspace.new settings) = (Workspace.new settings).outcomes first ∧
      ∀ e ∈ first, ∀ uri ∈ e.documentUris,
        ((Workspace.new settings).run events.all).document? uri =
          ((Workspace.new settings).run first).document? uri := by
  have hdisjoint : (Scope.ofEvents first).Disjoint (Scope.ofEvents second) := by
    refine ⟨fun uri h h' ↦ ?_, fun cell h h' ↦ ?_⟩
    · obtain ⟨e, he, hmem⟩ := List.mem_flatMap.1 h
      obtain ⟨e', he', hmem'⟩ := List.mem_flatMap.1 h'
      exact hdocuments e he e' he' uri hmem hmem'
    · obtain ⟨e, he, hmem⟩ := List.mem_flatMap.1 h
      obtain ⟨e', he', hmem'⟩ := List.mem_flatMap.1 h'
      exact hcells e he e' he' cell hmem hmem'
  have hfirst' : ∀ e ∈ events.first, (Scope.ofEvents first).Admits e :=
    fun e he ↦ Scope.admits_ofEvents (hfirst ▸ he)
  have hsecond' : ∀ e ∈ events.second, (Scope.ofEvents second).Admits e :=
    fun e he ↦ Scope.admits_ofEvents (hsecond ▸ he)
  obtain ⟨houtcomes, hrun⟩ := Within.interleaved hdisjoint (within_new settings _)
    (within_new settings _) hfirst' hsecond'
  rw [restrict_new, hfirst] at houtcomes hrun
  refine ⟨houtcomes, ?_⟩
  intro e he uri huri
  rw [← hrun, document?_restrict]
  exact List.mem_flatMap.2 ⟨e, he, huri⟩

/-- The first run opens a cell in a notebook that its URI does not tell, fails to edit it, and
refreshes another notebook; the second one opens a cell and closes it again in between. -/
theorem outcomes_interleaved_failing :
    let opened : WorkspaceEvent :=
      .opened ⟨"vscode-notebook-cell://h/n.ipynb#a", "python", 1, "x = 1".toList⟩
        (some "vscode-notebook://h/k.ipynb")
    let changed : WorkspaceEvent :=
      .changed "vscode-notebook-cell://h/n.ipynb#a" 2 [.ranged ⟨⟨3, 0⟩, ⟨3, 0⟩⟩ []]
    let refreshed : WorkspaceEvent :=
      .refreshed "vscode-notebook://h/n.ipynb"
        [⟨"vscode-notebook-cell://h/n.ipynb#b", "python", 1, "%run".toList⟩]
    let opened' : WorkspaceEvent :=
      .opened ⟨"vscode-notebook-cell://h/m.ipynb#a", "python", 1, "y".toList⟩ none
    let closed' : WorkspaceEvent := .closed "vscode-notebook-cell://h/m.ipynb#a"
    let events : Interleaving :=
      [.inl opened, .inr opened', .inl changed, .inr closed', .inl refreshed]
    let w := Workspace.new Settings.default
    events.firstOutcomes w = w.outcomes [opened, changed, refreshed] ∧
      (events.firstOutcomes w)[1]? = some (.error (.lineOutOfRange 3 1)) ∧
      ((w.run events.all).document? "file://h/_NotebookConcat_k.ipynb.py").map Document.text =
        some "x = 1\n".toList := by
  intro opened changed refreshed opened' closed' events w
  have hcells : ∀ e ∈ [opened, changed, refreshed], ∀ e' ∈ [opened', closed'],
      ∀ cell ∈ e.cellUris, cell ∉ e'.cellUris := by decide +kernel
  have hdocuments : ∀ e ∈ [opened, changed, refreshed], ∀ e' ∈ [opened', closed'],
      ∀ uri ∈ e.documentUris, uri ∉ e'.documentUris := by decide +kernel
  have hfirst : events.first = [opened, changed, refreshed] := rfl
  have hsecond : events.second = [opened', closed'] := rfl
  obtain ⟨houtcomes, hdocument⟩ :=
    outcomes_interleaved Settings.default hfirst hsecond hcells hdocuments
  have hfailed : (w.outcomes [opened, changed, refreshed])[1]? =
      some (.error (.lineOutOfRange 3 1)) := by decide +kernel
  have hreached : "file://h/_NotebookConcat_k.ipynb.py" ∈ opened.documentUris := by decide +kernel
  have htext : ((w.run [opened, changed, refreshed]).document?
      "file://h/_NotebookConcat_k.ipynb.py").map Document.text = some "x = 1\n".toList := by
    decide +kernel
  refine ⟨houtcomes, (congrArg (·[1]?) houtcomes).trans hfailed, ?_⟩
  exact (congrArg _ (hdocument opened List.mem_cons_self _ hreached)).trans htext

end Workspace

end CellStitch
