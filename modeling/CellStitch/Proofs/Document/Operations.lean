import CellStitch.Proofs.Cell.InputBoxes
import CellStitch.Proofs.Document.Determined
/-!
# Events as operations on cells

A document does with its cells what the event says, if it takes the cells that the event names: it
opens one, closes one, or puts others in place of all (`cells_handle_opened`,
`cells_handle_closed`, `cells_handle_refreshed`). That the text is computed anew does not come in
between, because cells that can be read can be laid out (`exists_withCells`), and all cells of a
document can be read (`Reachable.readable`).

So what the operations on cells keep holds of the cells of a document (`Reachable.of_after`). A
change is none of these operations; it keeps the URIs of all cells, and that is enough here.
-/

namespace CellStitch.Document

open CellList (Readable)

variable {d d' : Document}

/-! ### Cells that are laid out -/

/-- Cells that can be read can be laid out. -/
theorem exists_rebuild (hread : Readable d.cells) : ∃ d', d.rebuild = .ok d' := by
  have hok : (d.spansFrom 0 d.cells).map (fun _ ↦ ()) = .ok () := by
    rw [map_spansFrom_zero]
    rcases hcells : d.cells with - | ⟨c, cells⟩
    · rfl
    · obtain ⟨input, hinput⟩ := hread c (hcells ▸ List.mem_cons_self)
      show (c.isInput.map fun _ ↦ ()) = _
      rw [hinput]
      rfl
  rcases hspans : d.spansFrom 0 d.cells with f | spans
  · rw [hspans] at hok
    cases hok
  · exact ⟨_, by rw [rebuild, hspans]; rfl⟩

/-- Cells that can all be read are laid out without failure. -/
theorem exists_withCells (d : Document) {cells : CellList} (hread : Readable cells) :
    ∃ r, d.withCells cells = .ok r ∧ r.1.cells = cells := by
  obtain ⟨rebuilt, hrebuilt⟩ :=
    exists_rebuild (d := { d with cells := cells }) hread
  have hwith : d.withCells cells =
      .ok (rebuilt.emit (Edit.between d.text rebuilt.text).toList) := by
    rw [withCells, hrebuilt]
    rfl
  exact ⟨_, hwith, cells_of_withCells hwith⟩

/-! ### One event -/

theorem SameSetup.accepts_eq (hsame : d.SameSetup d') (c : Cell) : d'.accepts c = d.accepts c := by
  rw [accepts, accepts, hsame.settings_eq]

/-- A cell that is taken, but cannot be opened among the cells, does nothing. -/
theorem handle_opened_of_error {c : Cell} {f : Failure} (hc : d.accepts c = .ok true)
    (hopen : d.cells.openCell c = .error f) : d.handle (.opened c) = (d, .error f) := by
  rw [handle, openCell, hc, ok_bind, if_pos rfl, hopen]
  rfl

/-- **A cell that is taken** is opened among the cells of the document. -/
theorem exists_handle_opened (hread : Readable d.cells) {c : Cell} (hc : d.accepts c = .ok true)
    {i : Nat} {cells : CellList} (hopen : d.cells.openCell c = .ok (i, cells)) :
    ∃ d' update, d.handle (.opened c) = (d', .ok update) ∧ d'.cells = cells := by
  have hread' := hread.after (.opened c)
  rw [CellList.after_opened_of_ok hopen] at hread'
  obtain ⟨r, hr, hcells⟩ := d.exists_withCells hread'
  refine ⟨r.1, r.2, ?_, hcells⟩
  rw [handle, openCell, hc, ok_bind, if_pos rfl, hopen]
  show d.orKeep (d.withCells cells) = _
  rw [hr]
  rfl

/-- Opening a cell that is accepted does to the cells what the step of the cells says. -/
theorem cells_handle_opened (hread : Readable d.cells) {c : Cell}
    (hc : d.accepts c = .ok true) :
    (d.handle (.opened c)).1.cells = d.cells.after (.opened c) := by
  rcases hopen : d.cells.openCell c with f | ⟨i, cells⟩
  · rw [handle_opened_of_error hc hopen, CellList.after, hopen]
  · obtain ⟨d', update, hhandle, hcells⟩ := exists_handle_opened hread hc hopen
    rw [hhandle, CellList.after_opened_of_ok hopen]
    exact hcells

/-- One that is not taken, or of which this cannot be told, is not opened. -/
theorem handle_opened_of_ne {c : Cell} (hc : d.accepts c ≠ .ok true) :
    (d.handle (.opened c)).1 = d := by
  rw [handle, openCell]
  rcases haccepts : d.accepts c with f | - | -
  · rfl
  · rfl
  · exact absurd haccepts hc

/-- Closing a cell does to the cells what the step of the cells says. -/
theorem cells_handle_closed (hread : Readable d.cells) (uri : String) :
    (d.handle (.closed uri)).1.cells = d.cells.after (.closed uri) := by
  have hread' := hread.after (.closed uri)
  rw [CellList.after] at hread' ⊢
  rw [handle, closeCell]
  rcases hclose : d.cells.closeCell uri with - | ⟨c, cells⟩ <;> rw [hclose] at hread'
  · rfl
  · obtain ⟨r, hr, hcells⟩ := d.exists_withCells hread'
    show (d.orKeep (d.withCells cells)).1.cells = cells
    rw [hr]
    exact hcells

/-- **A refresh fails** where a cell of it cannot be read, and changes nothing then. -/
theorem handle_refreshed_of_error {cells : List Cell} {f : Failure}
    (hfail : (d.accepted cells >>= fun taken ↦ d.cells.replaceAll taken) = .error f) :
    d.handle (.refreshed cells) = (d, .error f) := by
  rw [handle, refresh]
  rcases htaken : d.accepted cells with g | taken <;> rw [htaken] at hfail
  · obtain rfl := Except.error.inj hfail
    rfl
  · rw [ok_bind] at hfail ⊢
    rw [hfail]
    rfl

/-- **A refresh** puts the cells that are taken in place of all. The whole text is told if it is
another one then. -/
theorem exists_handle_refreshed {cells : List Cell} {cells' : CellList}
    (hcells : (d.accepted cells >>= fun taken ↦ d.cells.replaceAll taken) = .ok cells')
    (hread : Readable cells') :
    ∃ d' update, d.handle (.refreshed cells) = (d', .ok update) ∧ d'.cells = cells' ∧
      update = if d'.text = d.text then none
        else some ⟨d.uri, d.version + 1, [.whole d'.text]⟩ := by
  obtain ⟨taken, htaken, hcells⟩ := bind_eq_ok_iff.1 hcells
  obtain ⟨rebuilt, hrebuilt⟩ :=
    exists_rebuild (d := { d with cells := cells' }) hread
  obtain ⟨-, hsame, hcells', hversion⟩ := sameSetup_of_rebuild hrebuilt
  set edits : List Edit := if rebuilt.text = d.text then [] else [.whole rebuilt.text] with hedits
  have hrefresh : d.handle (.refreshed cells) =
      ((rebuilt.emit edits).1, .ok (rebuilt.emit edits).2) := by
    rw [handle, refresh, htaken, ok_bind, hcells, ok_bind, hrebuilt]
    rfl
  refine ⟨_, _, hrefresh, (cells_emit rebuilt edits).trans hcells', ?_⟩
  by_cases htext : rebuilt.text = d.text
  · rw [if_pos htext] at hedits
    rw [hedits]
    exact (if_pos htext).symm
  · rw [if_neg htext] at hedits
    rw [hedits, ← hsame.uri_eq, ← hversion]
    exact (if_neg htext).symm

/-- A refresh does to the cells what the step of the cells says of those that are accepted. -/
theorem cells_handle_refreshed (hread : Readable d.cells) {cells : List Cell} {taken : CellList}
    (htaken : d.accepted cells = .ok taken) :
    (d.handle (.refreshed cells)).1.cells = d.cells.after (.replaced taken) := by
  have hread' := hread.after (.replaced taken)
  rcases hcells : d.cells.replaceAll taken with f | cells'
  · rw [CellList.after, hcells,
      handle_refreshed_of_error (f := f) (by rw [htaken, ok_bind, hcells])]
  · rw [CellList.after, hcells] at hread' ⊢
    obtain ⟨d', update, hhandle, hcells', -⟩ :=
      exists_handle_refreshed (by rw [htaken, ok_bind, hcells]) hread'
    rw [hhandle]
    exact hcells'

/-! ### Runs -/

/-- **What every operation on cells keeps** holds of the cells of a document, if the URIs decide it
and the cells can be read then. -/
theorem Reachable.of_after (h : Reachable d) (Holds : CellList → Prop)
    (hread : ∀ cells, Holds cells → Readable cells) (hnil : Holds [])
    (hcongr : ∀ cells cells', cells'.map Cell.uri = cells.map Cell.uri → Holds cells → Holds cells')
    (hafter : ∀ cells step, Holds cells → Holds (CellList.after cells step)) : Holds d.cells := by
  induction h with
  | new h =>
    rw [(settled_of_new h).2.1]
    exact hnil
  | @handle d h e ih =>
    have hreadable := hread d.cells ih
    cases e with
    | opened c =>
      by_cases hc : d.accepts c = .ok true
      · rw [cells_handle_opened hreadable hc]
        exact hafter d.cells (.opened c) ih
      · rwa [handle_opened_of_ne hc]
    | changed uri version edits =>
      exact hcongr d.cells _ (h.settled.cellUris_changeCell uri version edits) ih
    | closed uri =>
      rw [cells_handle_closed hreadable]
      exact hafter d.cells (.closed uri) ih
    | refreshed cells =>
      rcases htaken : d.accepted cells with f | taken
      · rwa [handle_refreshed_of_error (f := f) (by rw [htaken]; rfl)]
      · rw [cells_handle_refreshed hreadable htaken]
        exact hafter d.cells (.replaced taken) ih

/-- **The cells of a document can be read.** A cell that cannot is not opened. -/
theorem Reachable.readable (h : Reachable d) : Readable d.cells :=
  h.of_after Readable (fun _ hread ↦ hread) CellList.readable_nil
    (fun _ _ huris ↦ (CellList.readable_congr huris).2) fun _ step hread ↦ hread.after step

end CellStitch.Document
