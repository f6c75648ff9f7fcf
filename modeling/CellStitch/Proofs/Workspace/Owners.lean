import CellStitch.Proofs.Workspace.Effect
/-!
# Owners and their documents

The notebook that is noted for a cell never points anywhere else than at a document that is there
and holds the cell (`exists_document_of_mem_owners`): not after a refresh that lists the cells of
another notebook, nor after an event that fails.

The invariant (`Workspace.Sound`) says so of each note by itself. A note about a cell that an event
does not touch stays good because its document stays, with that cell: what takes an event is the
only document with its URI (`Workspace.Takes`), it keeps all cells but those that the event takes
away, and those have no notebook then.
-/

namespace CellStitch

namespace Workspace

variable {w w' : Workspace} {d d' : Document} {p : String × String} {cell notebook : String}

/-! ### Who is noted -/

theorem mem_dropOwner_iff : p ∈ (w.dropOwner cell).owners ↔ p ∈ w.owners ∧ p.1 ≠ cell := by
  simp [dropOwner]

/-- Noting an owner takes the place of the one that the cell had. -/
theorem mem_setOwner_iff :
    p ∈ (w.setOwner notebook cell).owners ↔ p = (cell, notebook) ∨ p ∈ w.owners ∧ p.1 ≠ cell := by
  rw [setOwner, List.mem_cons, mem_dropOwner_iff]

theorem mem_foldl_dropOwner_iff {cells : List String} :
    p ∈ (cells.foldl dropOwner w).owners ↔ p ∈ w.owners ∧ p.1 ∉ cells := by
  induction cells generalizing w with
  | nil => simp
  | cons cell cells ih =>
    rw [List.foldl_cons, ih, mem_dropOwner_iff, and_assoc, List.mem_cons, not_or]

/-- What is noted for cells of a notebook is noted for that notebook, and the rest was there before.
-/
theorem of_mem_foldl_setOwner {cells : List String}
    (h : p ∈ (cells.foldl (fun w c ↦ w.setOwner notebook c) w).owners) :
    (p.2 = notebook ∧ p.1 ∈ cells) ∨ p ∈ w.owners := by
  induction cells generalizing w with
  | nil => exact .inr h
  | cons cell cells ih =>
    rcases ih h with ⟨hnotebook, hmem⟩ | hmem
    · exact .inl ⟨hnotebook, List.mem_cons_of_mem cell hmem⟩
    · rcases mem_setOwner_iff.1 hmem with rfl | ⟨hp, -⟩
      · exact .inl ⟨rfl, List.mem_cons_self⟩
      · exact .inr hp

/-- Who is noted after a refresh: a cell that the document has then, or one that it did not have. -/
theorem of_mem_refreshedOwners {ok : Bool} (h : p ∈ w.refreshedOwners notebook d d' ok) :
    (p.2 = notebook ∧ p.1 ∈ d'.cellUris) ∨ (p ∈ w.owners ∧ p.1 ∉ d.cellUris) := by
  rw [refreshedOwners] at h
  split at h
  · exact (of_mem_foldl_setOwner h).imp_right mem_foldl_dropOwner_iff.1
  · exact .inr (mem_foldl_dropOwner_iff.1 h)

/-! ### Sound workspaces -/

/-- A notebook that is noted for a cell has a document, which holds the cell. -/
def Backed (w : Workspace) (p : String × String) : Prop :=
  ∃ d ∈ w.documents, documentOf p.2 = .ok d.uri ∧ p.1 ∈ d.cellUris

/-- What holds of every workspace that arises by events. -/
structure Sound (w : Workspace) : Prop where
  distinct : w.Distinct
  reachable : ∀ d ∈ w.documents, d.Reachable
  backed : ∀ p ∈ w.owners, w.Backed p

/-- A document that may take an event. It is the one of the workspace, if it has one with that
URI. -/
structure Takes (w : Workspace) (d : Document) : Prop where
  reachable : d.Reachable
  eq_of_uri_eq : ∀ e ∈ w.documents, e.uri = d.uri → e = d
  /-- A new document has no cells. -/
  mem_of_cell : ∀ cell ∈ d.cellUris, d ∈ w.documents

/-- At the start no cell has an owner. -/
theorem Sound.new (settings : Settings) : (Workspace.new settings).Sound where
  distinct := List.nodup_nil
  reachable _ h := absurd h List.not_mem_nil
  backed _ h := absurd h List.not_mem_nil

namespace Sound

variable (h : w.Sound)
include h

theorem takes_of_mem (hd : d ∈ w.documents) : w.Takes d :=
  ⟨h.reachable d hd, fun _ he huri ↦ List.inj_on_of_nodup_map h.distinct he hd huri, fun _ _ ↦ hd⟩

theorem takes_of_documentFor (hd : w.documentFor cell = .ok (some d)) : w.Takes d :=
  h.takes_of_mem (mem_of_documentFor hd)

theorem takes_of_documentOrNew (hd : w.documentOrNew notebook = .ok d) :
    w.Takes d ∧ documentOf notebook = .ok d.uri := by
  obtain ⟨uri, huri, hd⟩ := bind_eq_ok_iff.1 hd
  rcases hfound : w.document? uri with - | e <;> rw [hfound] at hd
  · obtain ⟨-, hcells, -, -, rfl⟩ := Document.settled_of_new hd
    refine ⟨⟨.new hd, fun e he heq ↦ ?_, fun cell hcell ↦ ?_⟩, huri⟩
    · exact absurd heq (document?_eq_none_iff.1 hfound e he)
    · rw [Document.cellUris, hcells] at hcell
      exact absurd hcell List.not_mem_nil
  · obtain rfl := Except.ok.inj hd
    obtain ⟨he, rfl⟩ := mem_of_document?_eq_some hfound
    exact ⟨h.takes_of_mem he, huri⟩

end Sound

namespace Takes

variable {e : Event} {x : Except Failure (Option Update)} (hd : w.Takes d)
  (hstep : d.handle e = (d', x))
include hd hstep

/-- An event leaves a document its URI. -/
theorem uri_eq : d'.uri = d.uri := by
  have hsame := (hd.reachable.settled.handle e).sameSetup
  rw [hstep] at hsame
  exact hsame.uri_eq

/-- An event leads from a reachable document to another one, also when it fails. -/
theorem reachable_handle : d'.Reachable := by
  have hreachable := hd.reachable.handle e
  rwa [hstep] at hreachable

/-- A note stays good if the document that takes an event keeps its cell. -/
theorem backed (hplaces : w.Places d' w') (hp : w.Backed p)
    (hkept : p.1 ∈ d.cellUris → p.1 ∈ d'.cellUris) : w'.Backed p := by
  obtain ⟨e, he, huri, hcell⟩ := hp
  have heq := hd.uri_eq hstep
  rcases Decidable.em (e.uri = d.uri) with hsame | hne
  · obtain rfl := hd.eq_of_uri_eq e he hsame
    have hcell' := hkept hcell
    exact ⟨d', hplaces.mem_self_of_cell hcell', huri.trans (congrArg _ heq.symm), hcell'⟩
  · exact ⟨e, hplaces.mem_of_ne he (heq.symm ▸ hne), huri, hcell⟩

/-- A note about a cell of the document that took an event. -/
theorem backed_self (hplaces : w.Places d' w') (huri : documentOf p.2 = .ok d.uri)
    (hcell : p.1 ∈ d'.cellUris) : w'.Backed p :=
  ⟨d', hplaces.mem_self_of_cell hcell, huri.trans (congrArg _ (hd.uri_eq hstep).symm), hcell⟩

/-- After an event that a document takes, only the notes have to be looked at. -/
theorem sound (h : w.Sound) (hplaces : w.Places d' w') (hbacked : ∀ p ∈ w'.owners, w'.Backed p) :
    w'.Sound where
  distinct := hplaces.distinct h.distinct
  reachable e he := by
    rcases hplaces.mem_or_eq he with rfl | ⟨he, -⟩
    · exact hd.reachable_handle hstep
    · exact h.reachable e he
  backed := hbacked

end Takes

/-- **However an event ends**, it leaves a workspace sound. -/
theorem Sound.of_ends (h : w.Sound) {e : WorkspaceEvent}
    {r : Workspace × Except Failure (Option Notification)} (hends : w.Ends e r) : r.1.Sound := by
  cases hends with
  | same => exact h
  | forgotten => exact ⟨h.distinct, h.reachable, fun p hp ↦ h.backed p (mem_dropOwner_iff.1 hp).1⟩
  | opened hd hstep hplaces _ howners =>
    obtain ⟨htakes, huri⟩ := h.takes_of_documentOrNew (destination_eq_some hd).2
    refine htakes.sound hstep h hplaces fun p hp ↦ ?_
    -- an owner that was noted before still holds its cell, for opening takes none away
    have hold : p ∈ w.owners → Backed _ p := fun hp ↦
      htakes.backed hstep hplaces (h.backed p hp) (Document.mem_cellUris_of_opened hstep)
    rw [howners] at hp
    split at hp
    · rename_i htaken
      rcases mem_setOwner_iff.1 hp with rfl | ⟨hp, -⟩
      · exact htakes.backed_self hstep hplaces huri htaken.2
      · exact hold hp
    · exact hold hp
  | changed hd hstep hplaces _ howners =>
    have htakes := h.takes_of_documentFor hd
    refine htakes.sound hstep h hplaces fun p hp ↦ ?_
    rw [howners] at hp
    refine htakes.backed hstep hplaces (h.backed p hp) fun hcell ↦ ?_
    rwa [htakes.reachable.settled.cellUris_of_changed hstep]
  | closed hd hstep hplaces _ howners =>
    have htakes := h.takes_of_documentFor hd
    refine htakes.sound hstep h hplaces fun p hp ↦ ?_
    rw [howners, mem_dropOwner_iff] at hp
    exact htakes.backed hstep hplaces (h.backed p hp.1) fun hcell ↦
      Document.mem_cellUris_of_closed hstep hcell hp.2
  | refreshed hd hstep hplaces _ howners =>
    obtain ⟨htakes, huri⟩ := h.takes_of_documentOrNew hd
    refine htakes.sound hstep h hplaces fun p hp ↦ ?_
    rw [howners] at hp
    rcases of_mem_refreshedOwners hp with ⟨hnotebook, hcell⟩ | ⟨hp, hnot⟩
    · exact htakes.backed_self hstep hplaces (hnotebook ▸ huri) hcell
    · exact htakes.backed hstep hplaces (h.backed p hp) fun hcell ↦ absurd hcell hnot

/-- **Every workspace that arises by events is sound.** -/
theorem Reachable.sound (h : Reachable w) : w.Sound := by
  induction h with
  | new settings => exact .new settings
  | @handle w _ e ih => exact ih.of_ends (w.ends_handle e)

/-- **The notebook that is noted for a cell has a document, which holds the cell**, whatever
happened to the cells and whether or not some of it failed. -/
theorem exists_document_of_mem_owners (h : Reachable w) (hp : (cell, notebook) ∈ w.owners) :
    ∃ uri d, documentOf notebook = .ok uri ∧ w.document? uri = some d ∧ cell ∈ d.cellUris := by
  obtain ⟨d, hd, huri, hcell⟩ := h.sound.backed _ hp
  exact ⟨d.uri, d, huri, h.sound.distinct.document?_eq_some_iff.2 ⟨hd, rfl⟩, hcell⟩

/-- A cell that is opened in a notebook which its URI does not tell, and is then listed twice by
another notebook. The last two events fail: an edit that does not fit, and a refresh with a URI that
cannot be read, which has taken the notebook of the cell `b` away by then. -/
theorem exists_document_of_mem_owners_failing :
    let cell := "vscode-notebook-cell://h/n.ipynb#a"
    let c : Cell := ⟨cell, "python", 1, "x = 1".toList⟩
    let w := (Workspace.new Settings.default).run
      [.opened c (some "vscode-notebook://h/k.ipynb"),
        .opened ⟨"vscode-notebook-cell://h/l.ipynb#b", "python", 1, []⟩ none,
        .refreshed "vscode-notebook://h/m.ipynb" [c, c],
        .changed cell 2 [.ranged ⟨⟨3, 0⟩, ⟨3, 0⟩⟩ []],
        .refreshed "vscode-notebook://h/l.ipynb" [⟨"vscode-notebook-cell://[h/", "python", 1, []⟩]]
    Reachable w ∧ w.owners = [(cell, "vscode-notebook://h/m.ipynb")] ∧
      ∃ d, w.document? "file://h/_NotebookConcat_m.ipynb.py" = some d ∧ cell ∈ d.cellUris := by
  intro cell c w
  have hw : Reachable w := (Reachable.new Settings.default).run _
  have howners : w.owners = [(cell, "vscode-notebook://h/m.ipynb")] := by decide +kernel
  obtain ⟨uri, d, huri, hd, hcell⟩ :=
    exists_document_of_mem_owners hw (howners ▸ List.mem_singleton_self _)
  have huri' : documentOf "vscode-notebook://h/m.ipynb" =
      .ok "file://h/_NotebookConcat_m.ipynb.py" := by decide +kernel
  obtain rfl := Except.ok.inj (huri'.symm.trans huri)
  exact ⟨hw, howners, d, hd, hcell⟩

end Workspace

end CellStitch
