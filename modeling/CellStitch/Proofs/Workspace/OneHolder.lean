import CellStitch.Proofs.Workspace.Owners
/-!
# One document for each cell

A cell is changed and closed in the document of the notebook that it is noted for. This reaches all
that is shown of the cell if no other document holds it, and its own holds it once
(`Workspace.HeldOnce`).

Not every run keeps this up. What breaks it is exactly an event that brings cells to a document
while another one holds one of them, or brings one of them twice, or brings them under a notebook
without a name, which is not looked up (`Workspace.Keeps`, `documentFor_eq_iff_keepsAll`): a cell
that is opened is put in the notebook that is given, or that its URI tells, whether or not it is
open somewhere else, and a refresh takes what it is told.
-/

namespace CellStitch

/-- The notebook that the URI of a cell tells has a name. -/
theorem notebookOf_ne_empty (cell : String) : notebookOf cell ≠ .ok "" := by
  rw [notebookOf]
  rcases Url.parse cell with f | url
  · intro h
    cases h
  · intro h
    have hempty : url.notebook = [] := by simpa using congrArg String.toList (Except.ok.inj h)
    rw [Url.notebook, Url.render, List.append_eq_nil_iff] at hempty
    exact List.cons_ne_nil _ _ hempty.2

namespace Workspace

variable {w w' : Workspace} {d d' : Document} {cell notebook : String}

/-! ### Where a cell is looked up -/

/-- A cell is opened in a notebook with a name. -/
theorem ne_empty_of_openedIn {c : Cell} {given : Option String}
    (h : openedIn c given = .ok notebook) : notebook ≠ "" := by
  rintro rfl
  rcases given with - | given
  · exact notebookOf_ne_empty c.uri h
  · rw [openedIn] at h
    split at h
    · exact notebookOf_ne_empty c.uri h
    · rename_i hgiven
      obtain rfl := Except.ok.inj h
      exact hgiven rfl

/-- Only the owner of a cell decides which document it is noted for. -/
theorem documentUriFor_congr (h : w'.owners.lookup cell = w.owners.lookup cell) :
    w'.documentUriFor cell = w.documentUriFor cell := by
  rw [documentUriFor, documentUriFor, notebookFor, notebookFor, h]

/-- A cell that is noted for a notebook is looked up in its document, if the notebook has a name. -/
theorem documentUriFor_of_lookup (h : w.owners.lookup cell = some notebook) :
    w.documentUriFor cell =
      if notebook = "" then notebookOf cell >>= documentOf else documentOf notebook := by
  rw [documentUriFor, notebookFor, h]
  dsimp only
  by_cases hempty : notebook = ""
  · rw [if_pos hempty, if_pos (by rw [hempty]; rfl)]
  · rw [if_neg hempty, if_neg (by simpa using hempty)]
    rfl

/-- Where no two documents have the same URI, a cell is found in the document that it is noted for.
-/
theorem Distinct.documentFor_eq_some_iff (h : w.Distinct) :
    w.documentFor cell = .ok (some d) ↔ w.documentUriFor cell = .ok d.uri ∧ d ∈ w.documents := by
  rw [documentFor, bind_eq_ok_iff]
  constructor
  · rintro ⟨uri, huri, hd⟩
    obtain ⟨hmem, rfl⟩ := mem_of_document?_eq_some (Except.ok.inj hd)
    exact ⟨huri, hmem⟩
  · rintro ⟨huri, hmem⟩
    exact ⟨d.uri, huri, congrArg Except.ok (h.document?_eq_some_iff.2 ⟨hmem, rfl⟩)⟩

/-! ### One holder -/

/-- Each document holds each of its cells once, and the cell is looked up there. -/
structure HeldOnce (w : Workspace) : Prop where
  nodup : ∀ d ∈ w.documents, d.cellUris.Nodup
  documentUriFor_eq : ∀ d ∈ w.documents, ∀ cell ∈ d.cellUris, w.documentUriFor cell = .ok d.uri

/-- Where an event brings cells, each of them comes once, no other document holds one of them, and
they are looked up there. -/
def Keeps (w : Workspace) (e : WorkspaceEvent) : Prop :=
  ∀ p ∈ w.brought e, p.2.cellUris.Nodup ∧
    (∀ d ∈ w.documents, d.uri ≠ p.2.uri → ∀ cell ∈ d.cellUris, cell ∉ p.2.cellUris) ∧
    (p.1 = "" → ∀ cell ∈ p.2.cellUris, (notebookOf cell >>= documentOf) = .ok p.2.uri)

instance (w : Workspace) (e : WorkspaceEvent) : Decidable (w.Keeps e) :=
  inferInstanceAs (Decidable (∀ p ∈ w.brought e, _))

/-- Every event does so, where the ones before it have led. -/
def KeepsAll (w : Workspace) : List WorkspaceEvent → Prop
  | [] => True
  | e :: events => w.Keeps e ∧ (w.handle e).1.KeepsAll events

instance decidableKeepsAll (w : Workspace) : (events : List WorkspaceEvent) →
    Decidable (w.KeepsAll events)
  | [] => .isTrue trivial
  | e :: events =>
    have := decidableKeepsAll (w.handle e).1 events
    inferInstanceAs (Decidable (w.Keeps e ∧ (w.handle e).1.KeepsAll events))

/-- An event that brings no cells keeps every cell with one holder. -/
theorem keeps_of_brought_eq_none {e : WorkspaceEvent} (h : w.brought e = none) : w.Keeps e := by
  rw [Keeps, h]
  exact fun p hp ↦ absurd hp (Option.not_mem_none p)

/-- What an event has to keep, in terms of the document that it brings cells to. -/
theorem keeps_iff_of_brought {e : WorkspaceEvent} (h : w.brought e = some (notebook, d')) :
    w.Keeps e ↔ d'.cellUris.Nodup ∧
      (∀ d ∈ w.documents, d.uri ≠ d'.uri → ∀ cell ∈ d.cellUris, cell ∉ d'.cellUris) ∧
      (notebook = "" → ∀ cell ∈ d'.cellUris, (notebookOf cell >>= documentOf) = .ok d'.uri) := by
  rw [Keeps, h]
  simp only [Option.mem_some_iff, forall_eq']

namespace HeldOnce

/-- A document that holds a cell is the only one. -/
theorem uri_eq (h : w.HeldOnce) (hd : d ∈ w.documents) (hd' : d' ∈ w.documents)
    (hcell : cell ∈ d.cellUris) (hcell' : cell ∈ d'.cellUris) : d.uri = d'.uri :=
  Except.ok.inj
    ((h.documentUriFor_eq d hd cell hcell).symm.trans (h.documentUriFor_eq d' hd' cell hcell'))

/-- What has to be seen to where a document is put in place: its own cells, and that those of the
others are still looked up as before. -/
theorem of_places (h : w.HeldOnce) (hplaces : w.Places d' w') (hnodup : d'.cellUris.Nodup)
    (hself : ∀ cell ∈ d'.cellUris, w'.documentUriFor cell = .ok d'.uri)
    (hothers : ∀ e ∈ w.documents, e.uri ≠ d'.uri → ∀ cell ∈ e.cellUris,
      w'.owners.lookup cell = w.owners.lookup cell) : w'.HeldOnce := by
  refine ⟨fun e he ↦ ?_, fun e he cell hcell ↦ ?_⟩
  all_goals rcases hplaces.mem_or_eq he with rfl | ⟨he, hne⟩
  · exact hnodup
  · exact h.nodup e he
  · exact hself cell hcell
  · rw [documentUriFor_congr (hothers e he hne cell hcell)]
    exact h.documentUriFor_eq e he cell hcell

/-- Where each cell has one holder, a document that was put in place shares none with the others. -/
theorem of_placed (h : w'.HeldOnce) (hplaces : w.Places d' w') : d'.cellUris.Nodup ∧
    ∀ d ∈ w.documents, d.uri ≠ d'.uri → ∀ cell ∈ d.cellUris, cell ∉ d'.cellUris := by
  refine ⟨?_, fun d hd hne cell hcell hcell' ↦ ?_⟩
  · rcases Decidable.em (d'.cells = []) with hnone | hcells
    · rw [Document.cellUris, hnone]
      exact List.nodup_nil
    · exact h.nodup d' (hplaces.mem_self hcells)
  · exact hne (h.uri_eq (hplaces.mem_of_ne hd hne) (hplaces.mem_self_of_cell hcell') hcell hcell')

end HeldOnce

/-! ### One event -/

/-- A cell that is held once is found in the document that holds it. -/
theorem HeldOnce.documentFor_eq (h : w.HeldOnce) (hw : w.Distinct) (hd : d ∈ w.documents)
    (hcell : cell ∈ d.cellUris) : w.documentFor cell = .ok (some d) :=
  hw.documentFor_eq_some_iff.2 ⟨h.documentUriFor_eq d hd cell hcell, hd⟩

/-- To forget the owner of a cell that no document holds. -/
theorem HeldOnce.dropOwner (h : w.HeldOnce) (hw : w.Distinct)
    (hnone : w.documentFor cell = .ok none) : (w.dropOwner cell).HeldOnce := by
  refine ⟨h.nodup, fun e he cell' hcell' ↦ ?_⟩
  have hne : cell' ≠ cell := by
    rintro rfl
    rw [h.documentFor_eq hw he hcell'] at hnone
    cases hnone
  refine (documentUriFor_congr ?_).trans (h.documentUriFor_eq e he cell' hcell')
  rw [lookup_dropOwner, if_neg hne]

namespace Takes

variable {x : Except Failure (Option Update)} (hd : w.Takes d) (hone : w.HeldOnce)
  (hplaces : w.Places d' w')
include hd hone hplaces

/-- Opening a cell keeps every cell with one holder exactly if its document has no URI twice and no
other document has one of the cells of the document. -/
theorem heldOnce_of_opened {c : Cell} (hstep : d.handle (.opened c) = (d', x))
    (huri : documentOf notebook = .ok d.uri) (hnotebook : notebook ≠ "")
    (hlookup : ∀ cell, w'.owners.lookup cell =
      if c.uri ∈ d'.cellUris ∧ cell = c.uri then some notebook else w.owners.lookup cell) :
    w'.HeldOnce ↔ d'.cellUris.Nodup ∧
      ∀ e ∈ w.documents, e.uri ≠ d'.uri → ∀ cell ∈ e.cellUris, cell ∉ d'.cellUris := by
  refine ⟨fun h ↦ h.of_placed hplaces, ?_⟩
  rintro ⟨hnodup, hothers⟩
  refine hone.of_places hplaces hnodup (fun cell hcell ↦ ?_) fun e he hne cell hcell ↦ ?_
  · rw [hd.uri_eq hstep]
    by_cases heq : cell = c.uri
    · have hnoted := (hlookup cell).trans (if_pos ⟨heq ▸ hcell, heq⟩)
      rw [documentUriFor_of_lookup hnoted, if_neg hnotebook, huri]
    · -- the cell was there before
      have hold : cell ∈ d.cellUris := by
        have hcell' : cell ∈ (d.handle (.opened c)).1.cellUris := by rwa [hstep]
        exact (hd.reachable.settled.mem_cellUris_handle hcell').resolve_right fun hnew ↦
          heq (List.mem_singleton.1 hnew)
      rw [documentUriFor_congr ((hlookup cell).trans (if_neg fun hnew ↦ heq hnew.2))]
      exact hone.documentUriFor_eq d (hd.mem_of_cell cell hold) cell hold
  · refine (hlookup cell).trans (if_neg ?_)
    rintro ⟨htaken, rfl⟩
    exact hothers e he hne _ hcell htaken

/-- A change brings and takes no cells. -/
theorem heldOnce_of_changed {version : Int} {edits : List Edit}
    (hstep : d.handle (.changed cell version edits) = (d', x)) (hmem : d ∈ w.documents)
    (howners : w'.owners = w.owners) : w'.HeldOnce := by
  have huris := hd.reachable.settled.cellUris_of_changed hstep
  have hlookup : ∀ cell, w'.owners.lookup cell = w.owners.lookup cell :=
    fun _ ↦ congrArg _ howners
  refine hone.of_places hplaces ?_ (fun cell hcell ↦ ?_) fun _ _ _ cell _ ↦ hlookup cell
  · rw [huris]
    exact hone.nodup d hmem
  · rw [huris] at hcell
    rw [documentUriFor_congr (hlookup cell), hd.uri_eq hstep]
    exact hone.documentUriFor_eq d hmem cell hcell

/-- Closing takes the cell from the document that holds it, and its owner with it. -/
theorem heldOnce_of_closed (hstep : d.handle (.closed cell) = (d', x)) (hok : x.isOk = true)
    (hmem : d ∈ w.documents) (hfound : w.documentUriFor cell = .ok d.uri)
    (howners : w'.owners = (w.dropOwner cell).owners) : w'.HeldOnce := by
  have huris := Document.cellUris_of_closed hstep hok
  have hnodup := hone.nodup d hmem
  have hlookup : ∀ cell', cell' ≠ cell → w'.owners.lookup cell' = w.owners.lookup cell' := by
    intro cell' hne
    rw [howners, lookup_dropOwner, if_neg hne]
  refine hone.of_places hplaces ?_ (fun cell' hcell' ↦ ?_) fun e he hne cell' hcell' ↦
    hlookup cell' ?_
  · rw [huris]
    exact hnodup.erase cell
  · rw [huris, hnodup.mem_erase_iff] at hcell'
    rw [documentUriFor_congr (hlookup cell' hcell'.1), hd.uri_eq hstep]
    exact hone.documentUriFor_eq d hmem cell' hcell'.2
  · rintro rfl
    refine hne (Except.ok.inj ((hone.documentUriFor_eq e he cell' hcell').symm.trans ?_))
    rw [hfound, hd.uri_eq hstep]

/-- A refresh keeps every cell with one holder exactly if it lists no URI twice, no other document
has a cell of it, and the notebook is one that is looked up. -/
theorem heldOnce_of_refreshed {cells : List Cell} (hstep : d.handle (.refreshed cells) = (d', x))
    (huri : documentOf notebook = .ok d.uri)
    (howners : w'.owners = w.refreshedOwners notebook d d' true) : w'.HeldOnce ↔
      d'.cellUris.Nodup ∧
        (∀ e ∈ w.documents, e.uri ≠ d'.uri → ∀ cell ∈ e.cellUris, cell ∉ d'.cellUris) ∧
        (notebook = "" → ∀ cell ∈ d'.cellUris, (notebookOf cell >>= documentOf) = .ok d'.uri) := by
  have hlookup := w.lookup_refreshedOwners notebook d d'
  rw [← howners] at hlookup
  constructor
  · intro h
    obtain ⟨hnodup, hothers⟩ := h.of_placed hplaces
    refine ⟨hnodup, hothers, fun hempty cell hcell ↦ ?_⟩
    have hfound := h.documentUriFor_eq d' (hplaces.mem_self_of_cell hcell) cell hcell
    rwa [documentUriFor_of_lookup ((hlookup cell).trans (if_pos hcell)), if_pos hempty] at hfound
  · rintro ⟨hnodup, hothers, hunnamed⟩
    refine hone.of_places hplaces hnodup (fun cell hcell ↦ ?_) fun e he hne cell hcell ↦ ?_
    · rw [documentUriFor_of_lookup ((hlookup cell).trans (if_pos hcell))]
      split
      · exact hunnamed ‹_› cell hcell
      · rw [huri, hd.uri_eq hstep]
    · rw [hlookup, if_neg (hothers e he hne cell hcell), if_neg]
      intro hold
      refine hne ?_
      rw [hd.uri_eq hstep]
      exact hone.uri_eq he (hd.mem_of_cell cell hold) hcell hold

end Takes

/-- **What keeps each cell in one document**, of the events that do not fail. -/
theorem Sound.heldOnce_iff (h : w.Sound) (hone : w.HeldOnce) {e : WorkspaceEvent}
    {r : Workspace × Except Failure (Option Notification)} (hends : w.Ends e r)
    (hok : r.2.isOk = true) : r.1.HeldOnce ↔ w.Keeps e := by
  cases hends with
  | same hidle => exact iff_of_true hone (keeps_of_brought_eq_none hidle)
  | forgotten hd => exact iff_of_true (hone.dropOwner h.distinct hd) (keeps_of_brought_eq_none rfl)
  | @opened c given notebook d d' x _ hd hstep hplaces hok' howners =>
    obtain ⟨hopened, hfound⟩ := destination_eq_some hd
    obtain ⟨htakes, huri⟩ := h.takes_of_documentOrNew hfound
    have hnotebook := ne_empty_of_openedIn hopened
    have hlookup : ∀ cell, r.1.owners.lookup cell =
        if c.uri ∈ d'.cellUris ∧ cell = c.uri then some notebook else w.owners.lookup cell := by
      intro cell
      rw [howners, ← hok', hok]
      by_cases htaken : c.uri ∈ d'.cellUris
      · simp only [htaken, true_and, if_true, lookup_setOwner]
      · simp only [htaken, and_false, false_and, if_false]
    rw [keeps_iff_of_brought (brought_opened hd), hstep,
      htakes.heldOnce_of_opened hone hplaces hstep huri hnotebook hlookup]
    exact and_congr_right fun _ ↦ (and_iff_left fun hempty ↦ absurd hempty hnotebook).symm
  | changed hd hstep hplaces _ howners =>
    refine iff_of_true ?_ (keeps_of_brought_eq_none rfl)
    exact (h.takes_of_documentFor hd).heldOnce_of_changed hone hplaces hstep
      (mem_of_documentFor hd) howners
  | closed hd hstep hplaces hok' howners =>
    obtain ⟨hfound, hmem⟩ := h.distinct.documentFor_eq_some_iff.1 hd
    refine iff_of_true ?_ (keeps_of_brought_eq_none rfl)
    exact (h.takes_of_mem hmem).heldOnce_of_closed hone hplaces hstep (hok' ▸ hok) hmem hfound
      howners
  | refreshed hd hstep hplaces hok' howners =>
    obtain ⟨htakes, huri⟩ := h.takes_of_documentOrNew hd
    rw [← hok', hok] at howners
    rw [keeps_iff_of_brought (brought_refreshed hd), hstep]
    exact htakes.heldOnce_of_refreshed hone hplaces hstep huri howners

/-! ### Runs -/

/-- A run without failure leads to a workspace that arises by events. -/
theorem Reachable.runAll? (h : Reachable w) {events : List WorkspaceEvent}
    {sent : List (Option Notification)} (hrun : w.runAll? events = .ok (w', sent)) :
    Reachable w' := by
  induction events generalizing w sent with
  | nil =>
    cases hrun
    exact h
  | cons e events ih =>
    obtain ⟨w₁, out, rest, hstep, hrest, -⟩ := runAll?_cons_eq_ok_iff.1 hrun
    have hw₁ := h.handle e
    rw [hstep] at hw₁
    exact ih hw₁ hrest

/-- **A run**: each cell has one document all along exactly if every event keeps it so. -/
theorem Sound.heldOnce_take_iff (h : w.Sound) (hone : w.HeldOnce) {events : List WorkspaceEvent}
    {sent : List (Option Notification)} (hrun : w.runAll? events = .ok (w', sent)) :
    (∀ k wₖ sentₖ, w.runAll? (events.take k) = .ok (wₖ, sentₖ) → wₖ.HeldOnce) ↔
      w.KeepsAll events := by
  -- a run keeps it so if its first event does, and the rest does from there on
  induction events generalizing w sent with
  | nil =>
    refine iff_of_true (fun k wₖ sentₖ hk ↦ ?_) trivial
    rw [List.take_nil] at hk
    cases hk
    exact hone
  | cons e events ih =>
    obtain ⟨w₁, out, rest, hstep, hrest, rfl⟩ := runAll?_cons_eq_ok_iff.1 hrun
    have hends := w.ends_handle e
    have hw₁ := h.of_ends hends
    have hiff := h.heldOnce_iff hone hends (by rw [hstep]; rfl)
    rw [hstep] at hw₁ hiff
    rw [KeepsAll, hstep, ← hiff]
    constructor
    · intro hall
      have hone₁ : w₁.HeldOnce :=
        hall 1 w₁ [out] (runAll?_cons_eq_ok_iff.2 ⟨w₁, out, [], hstep, rfl, rfl⟩)
      refine ⟨hone₁, (ih hw₁ hone₁ hrest).1 fun k wₖ sentₖ hk ↦ ?_⟩
      exact hall (k + 1) wₖ (out :: sentₖ)
        (runAll?_cons_eq_ok_iff.2 ⟨w₁, out, sentₖ, hstep, hk, rfl⟩)
    · rintro ⟨hone₁, hkeeps⟩ (_ | k) wₖ sentₖ hk
      · cases hk
        exact hone
      · obtain ⟨w₁', out', restₖ, hstep', hk, rfl⟩ := runAll?_cons_eq_ok_iff.1 hk
        obtain rfl : w₁ = w₁' := congrArg Prod.fst (hstep.symm.trans hstep')
        exact (ih hw₁ hone₁ hrest).2 hkeeps k wₖ restₖ hk

/-- With sound owners, every cell is held once exactly if it is found where it is shown, and only
there. -/
theorem Sound.heldOnce_iff_documentFor (h : w.Sound) : w.HeldOnce ↔ ∀ d ∈ w.documents,
    d.cellUris.Nodup ∧ ∀ cell ∈ d.cellUris, w.documentFor cell = .ok (some d) ∧
      ∀ e ∈ w.documents, cell ∈ e.cellUris → e = d := by
  constructor
  · intro hone d hd
    refine ⟨hone.nodup d hd, fun cell hcell ↦ ⟨hone.documentFor_eq h.distinct hd hcell, ?_⟩⟩
    intro e he hcell'
    exact List.inj_on_of_nodup_map h.distinct he hd (hone.uri_eq he hd hcell' hcell)
  · intro hall
    refine ⟨fun d hd ↦ (hall d hd).1, fun d hd cell hcell ↦ ?_⟩
    exact (h.distinct.documentFor_eq_some_iff.1 ((hall d hd).2 cell hcell).1).1

/-- **Each cell has one document**, after every event of a run in which none fails, exactly if the
events keep it so: no other document holds the cell, its own holds it once, and this is the document
that the cell is looked up in. -/
theorem documentFor_eq_iff_keepsAll {settings : Settings} {events : List WorkspaceEvent}
    {w : Workspace} {sent : List (Option Notification)}
    (h : (Workspace.new settings).runAll? events = .ok (w, sent)) :
    (∀ k wₖ sentₖ, (Workspace.new settings).runAll? (events.take k) = .ok (wₖ, sentₖ) →
      ∀ d ∈ wₖ.documents, d.cellUris.Nodup ∧ ∀ cell ∈ d.cellUris,
        wₖ.documentFor cell = .ok (some d) ∧ ∀ e ∈ wₖ.documents, cell ∈ e.cellUris → e = d) ↔
      (Workspace.new settings).KeepsAll events := by
  have hnew := Reachable.new settings
  have hone : (Workspace.new settings).HeldOnce :=
    ⟨fun _ hd ↦ absurd hd List.not_mem_nil, fun _ hd ↦ absurd hd List.not_mem_nil⟩
  rw [← hnew.sound.heldOnce_take_iff hone h]
  refine forall_congr' fun k ↦ forall_congr' fun wₖ ↦ forall_congr' fun sentₖ ↦ ?_
  exact forall_congr' fun hk ↦ (hnew.runAll? hk).sound.heldOnce_iff_documentFor.symm

/-- Cells of three notebooks. The cell `a` is opened in a notebook that its URI does not tell, and
again there; a refresh lists it once it is closed. -/
theorem documentFor_eq_iff_keepsAll_moved :
    let a : Cell := ⟨"vscode-notebook-cell://h/n.ipynb#a", "python", 1, "x = 1".toList⟩
    let events : List WorkspaceEvent :=
      [.opened a (some "vscode-notebook://h/k.ipynb"),
        .opened ⟨"vscode-notebook-cell://h/n.ipynb#b", "python", 1, []⟩ none,
        .opened a (some "vscode-notebook://h/k.ipynb"),
        .changed a.uri 3 [.whole "%run".toList],
        .closed a.uri,
        .refreshed "vscode-notebook://h/m.ipynb" [a]]
    ∃ w sent, (Workspace.new Settings.default).runAll? events = .ok (w, sent) ∧
      w.documents.map Document.cellUris = [["vscode-notebook-cell://h/n.ipynb#b"], [a.uri]] ∧
      ∀ d ∈ w.documents, d.cellUris.Nodup ∧ ∀ cell ∈ d.cellUris,
        w.documentFor cell = .ok (some d) ∧ ∀ e ∈ w.documents, cell ∈ e.cellUris → e = d := by
  intro a events
  have hkeeps : (Workspace.new Settings.default).KeepsAll events := by decide +kernel
  have huris : ((Workspace.new Settings.default).runAll? events).toOption.map
      (fun x ↦ x.1.documents.map Document.cellUris) =
        some [["vscode-notebook-cell://h/n.ipynb#b"], [a.uri]] := by decide +kernel
  rcases hrun : (Workspace.new Settings.default).runAll? events with f | ⟨w, sent⟩ <;>
    rw [hrun] at huris
  · cases huris
  · refine ⟨w, sent, rfl, Option.some.inj huris, ?_⟩
    exact (documentFor_eq_iff_keepsAll hrun).2 hkeeps events.length w sent hrun

/-- **A cell may get two documents**: it is opened in the notebook that is given, and opened again
without word of a notebook, and so in the one that its URI tells. -/
theorem exists_two_documents :
    ¬ ∀ (settings : Settings) (events : List WorkspaceEvent) (w : Workspace)
      (sent : List (Option Notification)),
      (Workspace.new settings).runAll? events = .ok (w, sent) →
        ∀ cell, ∀ d ∈ w.documents, cell ∈ d.cellUris →
          w.documentFor cell = .ok (some d) ∧ ∀ e ∈ w.documents, cell ∈ e.cellUris → e = d := by
  intro hall
  let a : Cell :=
    ⟨"vscode-notebook-cell:/Interactive-1.interactive#a", "python", 1, "x = 1".toList⟩
  let events : List WorkspaceEvent :=
    [.opened a (some "vscode-interactive:/1.interactive"), .opened a none]
  have hholders : ((Workspace.new Settings.default).runAll? events).toOption.map
      (fun x ↦ x.1.documents.map fun d ↦ (d.uri, d.cellUris)) =
        some [("file:///_NotebookConcat_1.interactive.py", [a.uri]),
          ("file:///_NotebookConcat_Interactive-1.interactive.py", [a.uri])] := by decide +kernel
  rcases hrun : (Workspace.new Settings.default).runAll? events with f | ⟨w, sent⟩ <;>
    rw [hrun] at hholders
  · cases hholders
  · have hholders : w.documents.map (fun d ↦ (d.uri, d.cellUris)) = _ := Option.some.inj hholders
    -- both documents hold the cell
    obtain ⟨d, hd, hd'⟩ := List.mem_map.1 (hholders ▸ List.mem_cons_self)
    obtain ⟨e, he, he'⟩ :=
      List.mem_map.1 (hholders ▸ List.mem_cons_of_mem _ List.mem_cons_self)
    obtain ⟨hduri, hdcells⟩ := Prod.mk.inj hd'
    obtain ⟨heuri, hecells⟩ := Prod.mk.inj he'
    have hcell : a.uri ∈ d.cellUris := by
      rw [hdcells]
      exact List.mem_cons_self
    have hcell' : a.uri ∈ e.cellUris := by
      rw [hecells]
      exact List.mem_cons_self
    obtain rfl := (hall _ _ w sent hrun a.uri d hd hcell).2 e he hcell'
    exact absurd (hduri.symm.trans heuri) (by decide)

end Workspace

end CellStitch
