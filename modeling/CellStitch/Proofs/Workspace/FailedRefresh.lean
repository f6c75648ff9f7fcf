import CellStitch.Proofs.Document.Determined
import CellStitch.Proofs.Workspace.Owners
import CellStitch.Proofs.Workspace.Scope
/-!
# What a refresh that fails leaves behind

A refresh first gets its document, a new one if the notebook has none, and forgets the notebooks
that its cells were opened in. Only then are the new cells looked at. If one of them has a URI that
cannot be read, the document is as it was, but it stays in the workspace also if it is new, and the
notebooks stay forgotten (`of_handle_refreshed_eq_error`).

A cell whose notebook is forgotten is looked up in the one that its URI tells. So what is done to it
afterwards goes to another document than the one that holds it, or to none.
-/

namespace CellStitch

namespace Workspace

variable {w w' : Workspace} {d d' : Document} {notebook : String} {cells : List Cell} {f : Failure}

/-! ### The steps of a refresh -/

/-- To forget the notebooks of some cells changes nothing else. -/
theorem foldl_dropOwner_eq (uris : List String) (w : Workspace) :
    uris.foldl dropOwner w = { w with owners := w.owners.filter (·.1 ∉ uris) } := by
  induction uris generalizing w with
  | nil => simp
  | cons uri uris ih =>
    rw [List.foldl_cons, ih]
    simp [dropOwner, List.filter_filter, Bool.and_comm]

/-- A document that is put in place as it is changes nothing. -/
theorem Takes.documents_put_of_mem (h : w.Takes d) (hd : d ∈ w.documents) :
    (w.put d).documents = w.documents := by
  rw [documents_put_of_isSome (isSome_document?_iff.2 (List.mem_map_of_mem hd))]
  refine (List.map_congr_left fun e he ↦ ?_).trans (List.map_id' _)
  split
  · exact (h.eq_of_uri_eq e he ‹_›).symm
  · rfl

/-- A document that the workspace does not have is put behind all others. -/
theorem Takes.documents_put_of_not_mem (h : w.Takes d) (hd : d ∉ w.documents) :
    (w.put d).documents = w.documents ++ [d] := by
  refine documents_put_of_not_isSome fun hsome ↦ ?_
  obtain ⟨e, he, huri⟩ := List.mem_map.1 (isSome_document?_iff.1 hsome)
  exact hd (h.eq_of_uri_eq e he huri ▸ he)

/-- A new document has no cells. -/
theorem Takes.cells_eq_nil (h : w.Takes d) (hd : d ∉ w.documents) : d.cells = [] :=
  List.eq_nil_iff_forall_not_mem.2 fun c hc ↦
    hd (h.mem_of_cell c.uri (List.mem_map_of_mem hc))

/-- Forgetting the notebooks of cells between putting a document in and putting it in again. -/
theorem put_foldl_dropOwner_put (w : Workspace) (d : Document) (uris : List String) :
    (uris.foldl dropOwner (w.put d)).put d =
      { w.put d with owners := w.owners.filter (·.1 ∉ uris) } := by
  rw [foldl_dropOwner_eq]
  exact eq_of_fields rfl ((documents_put_congr rfl).trans (documents_put_put rfl)) rfl rfl

/-- **A refresh fails where it gets no document, or where the document does not take the cells**,
which is left as it is then. -/
theorem refresh_eq_error_iff : w.refresh notebook cells = (w', .error f) ↔
    (w.documentOrNew notebook = .error f ∧ w' = w) ∨
      ∃ d, w.documentOrNew notebook = .ok d ∧ d.handle (.refreshed cells) = (d, .error f) ∧
        w' = { w.put d with owners := w.owners.filter (·.1 ∉ d.cellUris) } := by
  rw [refresh]
  rcases hd : w.documentOrNew notebook with g | d
  · simp [eq_comm, and_comm]
  · rcases hstep : d.handle (.refreshed cells) with ⟨d', g | update⟩
    · obtain rfl := Document.eq_self_of_orKeep hstep
      simp [hstep, put_foldl_dropOwner_put, eq_comm, and_comm]
    · simp [hstep, done]

/-! ### What stays -/

/-- Where no cell of a list has a noted notebook, none is forgotten. -/
theorem filter_owners_eq_self_iff {owners : List (String × String)} {uris : List String} :
    owners.filter (·.1 ∉ uris) = owners ↔ ∀ cell ∈ uris, owners.lookup cell = none := by
  simp only [List.filter_eq_self, List.lookup_eq_none_iff, decide_eq_true_eq, bne_iff_ne]
  exact ⟨fun h cell hcell p hp heq ↦ h p hp (heq ▸ hcell), fun h p hp hcell ↦ h p.1 hcell p hp rfl⟩

/-- A cell without a noted notebook belongs to the one that its URI tells. -/
theorem notebookFor_of_lookup_eq_none {cell : String} (h : w.owners.lookup cell = none) :
    w.notebookFor cell = notebookOf cell := by
  rw [notebookFor, h]

/-- **A refresh that fails forgets the notebooks of the cells of its document**, and leaves a new
document in place. Where the notebook has no document that could be made, nothing happened. Else the
documents that were there are as they were, and so is what is open at the server, but the cells of
the document are looked up where their URIs tell.

So everything stays as it was exactly if the document was there and no notebook was noted for any of
its cells. -/
theorem of_handle_refreshed_eq_error (h : Reachable w)
    (hfail : w.handle (.refreshed notebook cells) = (w', .error f)) :
    (w.documentOrNew notebook = .error f ∧ w' = w) ∨
      ∃ d, w.documentOrNew notebook = .ok d ∧ d.handle (.refreshed cells) = (d, .error f) ∧
        w'.settings = w.settings ∧ w'.opened = w.opened ∧
        (d ∈ w.documents → w'.documents = w.documents) ∧
        (d ∉ w.documents → d.cells = [] ∧ w'.documents = w.documents ++ [d]) ∧
        w'.owners = w.owners.filter (·.1 ∉ d.cellUris) ∧
        (∀ cell ∈ d.cellUris, w'.notebookFor cell = notebookOf cell) ∧
        (w' = w ↔ d ∈ w.documents ∧ ∀ cell ∈ d.cellUris, w.owners.lookup cell = none) := by
  rcases refresh_eq_error_iff.1 hfail with hnone | ⟨d, hd, hstep, rfl⟩
  · exact .inl hnone
  have htakes := (h.sound.takes_of_documentOrNew hd).1
  refine .inr ⟨d, hd, hstep, rfl, rfl, htakes.documents_put_of_mem,
    fun hnew ↦ ⟨htakes.cells_eq_nil hnew, htakes.documents_put_of_not_mem hnew⟩, rfl,
    fun cell hcell ↦ notebookFor_of_lookup_eq_none ?_, ?_⟩
  · refine List.lookup_eq_none_iff.2 fun p hp ↦ bne_iff_ne.2 fun heq ↦ ?_
    have hother := of_decide_eq_true (List.mem_filter.1 hp).2
    exact hother (heq ▸ hcell)
  · rw [← filter_owners_eq_self_iff]
    constructor
    · intro hsame
      have hmem : d ∈ (w.put d).documents := mem_put_iff.2 (.inl rfl)
      exact ⟨congrArg documents hsame ▸ hmem, congrArg owners hsame⟩
    · rintro ⟨hmem, howners⟩
      exact eq_of_fields rfl (htakes.documents_put_of_mem hmem) rfl howners

/-! ### A cell that is not found any more -/

/-- A cell of an interactive window, which its URI does not tell. -/
def windowCell : Cell :=
  ⟨"vscode-notebook-cell:/Interactive-1.interactive#a", "python", 1, "x = 1".toList⟩

/-- A workspace with that cell. -/
def withWindow : Workspace :=
  (Workspace.new Settings.default).run
    [.opened windowCell (some "vscode-interactive:/1.interactive")]

/-- A refresh of the window, which brings a cell with a URI that cannot be read. -/
def unreadableRefresh : WorkspaceEvent :=
  .refreshed "vscode-interactive:/1.interactive"
    [⟨"vscode-notebook-cell://[/n.ipynb#b", "python", 1, "y".toList⟩]

theorem reachable_withWindow : Reachable withWindow := (Reachable.new Settings.default).run _

theorem handle_unreadableRefresh : (withWindow.handle unreadableRefresh).2 =
    .error (.malformedUri "vscode-notebook-cell://[/n.ipynb#b") := by decide +kernel

/-- The document of the window keeps its cell, but the cell is looked up in another one then. -/
theorem of_handle_refreshed_eq_error_window : Reachable withWindow ∧
    ∃ w' f, withWindow.handle unreadableRefresh = (w', .error f) ∧
      w'.documents = withWindow.documents ∧ w' ≠ withWindow ∧
      withWindow.documentUriFor windowCell.uri = .ok "file:///_NotebookConcat_1.interactive.py" ∧
      w'.documentUriFor windowCell.uri =
        .ok "file:///_NotebookConcat_Interactive-1.interactive.py" := by
  rcases hstep : withWindow.handle unreadableRefresh with ⟨w', out⟩
  obtain rfl : out = _ := (congrArg Prod.snd hstep).symm.trans handle_unreadableRefresh
  have huri : (withWindow.documentOrNew "vscode-interactive:/1.interactive").toOption.map
      (fun d ↦ (d.uri, d.cellUris)) =
        some ("file:///_NotebookConcat_1.interactive.py", [windowCell.uri]) := by decide +kernel
  have hlookup : withWindow.owners.lookup windowCell.uri =
      some "vscode-interactive:/1.interactive" := by decide +kernel
  rcases of_handle_refreshed_eq_error reachable_withWindow hstep with
    ⟨hnone, -⟩ | ⟨d, hd, -, -, -, hkept, hnew, -, hfor, hsame⟩
  · rw [hnone] at huri
    cases huri
  · rw [hd] at huri
    obtain ⟨-, hcells⟩ := Prod.mk.inj (Option.some.inj huri)
    have hcell : windowCell.uri ∈ d.cellUris := hcells ▸ List.mem_cons_self
    have hmem : d ∈ withWindow.documents := by
      by_contra hnot
      rw [Document.cellUris, (hnew hnot).1] at hcell
      exact List.not_mem_nil hcell
    refine ⟨reachable_withWindow, w', _, rfl, hkept hmem, fun heq ↦ ?_, by decide +kernel, ?_⟩
    · rw [(hsame.1 heq).2 windowCell.uri hcell] at hlookup
      cases hlookup
    · rw [documentUriFor, hfor windowCell.uri hcell]
      decide +kernel

/-- **A refresh that fails need not leave the workspace as it was**: the notebook that a cell was
opened in is forgotten. -/
theorem exists_handle_refreshed_not_kept :
    ¬ ∀ (w w' : Workspace) (notebook : String) (cells : List Cell) (f : Failure),
      Reachable w → w.handle (.refreshed notebook cells) = (w', .error f) →
        w'.documents = w.documents ∧ w'.opened = w.opened ∧ w'.owners = w.owners := by
  intro hall
  have howners : (withWindow.handle unreadableRefresh).1.owners = withWindow.owners :=
    (hall withWindow _ _ _ _ reachable_withWindow
      (Prod.ext rfl handle_unreadableRefresh)).2.2
  exact absurd howners (by decide +kernel)

end Workspace

end CellStitch
