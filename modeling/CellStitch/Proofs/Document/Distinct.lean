import CellStitch.Proofs.Document.Operations
import Mathlib.Data.List.Nodup
/-!
# Distinct cells

A cell of a document is looked up, edited and closed by its URI, which tells it from all other cells
as long as the URIs are distinct. Of the four operations on cells three keep them so: to open a cell
inserts its URI if it is not there, to close one erases it, and an edit keeps all URIs. The fourth,
which puts other cells in place of all, takes over what it is given
(`CellList.Readable.nodup_uris_after_iff`); only of input boxes it keeps no more than one, so that
none of these is ever there twice (`Reachable.nodup_uris_boxes`).

So the cells of a document are distinct all along exactly if no refresh that is carried out lists a
URI twice, other than that of an input box (`forall_nodup_cellUris_run_take_iff`).
-/

namespace CellStitch

namespace CellList

variable {cells : CellList}

/-- An input box behind cells that are none has another URI than all of them. -/
theorem nodup_uris_append_box_iff {front : CellList} (hfront : ∀ c ∈ front, c.isBox = false)
    {box : Option Cell} (hbox : ∀ b, box = some b → b.isBox = true) :
    ((front ++ box.toList).map Cell.uri).Nodup ↔ (front.map Cell.uri).Nodup := by
  rw [List.map_append, List.nodup_append]
  refine ⟨fun h ↦ h.1, fun h ↦ ⟨h, ?_, ?_⟩⟩
  · cases box <;> simp
  · intro u hu v hv
    obtain ⟨c, hc, rfl⟩ := List.mem_map.1 hu
    obtain ⟨b, hb, rfl⟩ := List.mem_map.1 hv
    exact uri_ne_of_isBox (hfront c hc) (hbox b (Option.mem_toList.1 hb))

/-- **What keeps the URIs of cells distinct**, of the operations: cells that are put in place of all
have distinct URIs, input boxes apart. -/
theorem Readable.nodup_uris_after_iff (h : cells.Readable) (hnodup : (cells.map Cell.uri).Nodup)
    (step : Step) : ((cells.after step).map Cell.uri).Nodup ↔ ∀ incoming,
      step = .replaced incoming → incoming.Readable → (incoming.others.map Cell.uri).Nodup := by
  cases step with
  | opened c =>
    refine iff_of_true ?_ (by simp)
    rcases hopen : cells.openCell c with f | ⟨i, cells'⟩
    · rwa [CellList.after, hopen]
    · rw [after_opened_of_ok hopen]
      exact (perm_of_openCell hopen).nodup_iff.2 (List.Nodup.insert hnodup)
  | closed uri =>
    refine iff_of_true ?_ (by simp)
    exact hnodup.sublist ((cells.after_closed_sublist uri).map Cell.uri)
  | edited uri start stop new version =>
    refine iff_of_true ?_ (by simp)
    rwa [map_uri_after_edited]
  -- only here can a URI come twice: a cell that is opened is looked up first
  | replaced incoming =>
    simp only [Step.replaced.injEq, forall_eq']
    rw [h.after_replaced]
    split
    · rename_i hread
      refine (nodup_uris_append_box_iff (fun _ ↦ isBox_of_mem_others)
        fun b ↦ isBox_of_keptBox?).trans ⟨fun hothers _ ↦ hothers, fun hothers ↦ hothers hread⟩
    · rename_i hread
      exact iff_of_true hnodup fun hread' ↦ absurd hread' hread

/-! ### Input boxes -/

/-- The URIs of the input boxes are those among the URIs that are ones of input boxes. -/
theorem map_uri_boxes (cells : CellList) : cells.boxes.map Cell.uri =
    (cells.map Cell.uri).filter fun uri ↦ (Cell.isBox ⟨uri, "", 0, []⟩) := by
  rw [boxes, List.filter_map]
  rfl

/-- **No operation brings an input box twice.** -/
theorem Readable.nodup_uris_boxes_after (h : cells.Readable)
    (hnodup : (cells.boxes.map Cell.uri).Nodup) (step : Step) :
    ((cells.after step).boxes.map Cell.uri).Nodup := by
  rw [map_uri_boxes] at hnodup ⊢
  cases step with
  | opened c =>
    rcases hopen : cells.openCell c with f | ⟨i, cells'⟩
    · rwa [CellList.after, hopen]
    · rw [after_opened_of_ok hopen, ((perm_of_openCell hopen).filter _).nodup_iff]
      by_cases hmem : c.uri ∈ cells.map Cell.uri
      · rwa [List.insert_of_mem hmem]
      · rw [List.insert_of_not_mem hmem, List.filter_cons]
        split
        · exact List.nodup_cons.2 ⟨fun hboxes ↦ hmem (List.mem_of_mem_filter hboxes), hnodup⟩
        · exact hnodup
  | closed uri => exact hnodup.sublist (((cells.after_closed_sublist uri).map Cell.uri).filter _)
  | edited uri start stop new version => rwa [map_uri_after_edited]
  | replaced incoming =>
    rw [h.after_replaced]
    split
    · -- the others have no input box among them, and there is one behind them at most
      have hothers : incoming.others.boxes = [] :=
        boxes_eq_nil_iff.2 fun _ ↦ isBox_of_mem_others
      rw [← map_uri_boxes, boxes_append, hothers, List.nil_append]
      refine List.Nodup.sublist (List.filter_sublist.map Cell.uri) ?_
      cases cells.keptBox? incoming <;> simp
    · exact hnodup

end CellList

namespace Document

open CellList (Readable)

variable {d d' : Document}

theorem SameSetup.accepted_eq (hsame : d.SameSetup d') (cells : List Cell) :
    d'.accepted cells = d.accepted cells := by
  induction cells with
  | nil => rfl
  | cons c cells ih => rw [accepted, accepted, hsame.accepts_eq, ih]

/-- **No input box is in a document twice.** -/
theorem Reachable.nodup_uris_boxes (h : Reachable d) : (d.cells.boxes.map Cell.uri).Nodup := by
  have hcongr : ∀ cells cells' : CellList, cells'.map Cell.uri = cells.map Cell.uri →
      Readable cells ∧ (cells.boxes.map Cell.uri).Nodup →
      Readable cells' ∧ (cells'.boxes.map Cell.uri).Nodup := by
    rintro cells cells' huris ⟨hread, hnodup⟩
    rw [CellList.readable_congr huris, CellList.map_uri_boxes, huris, ← CellList.map_uri_boxes]
    exact ⟨hread, hnodup⟩
  have hboth := h.of_after (fun cells ↦ Readable cells ∧ (cells.boxes.map Cell.uri).Nodup)
    (fun _ hboth ↦ hboth.1) ⟨CellList.readable_nil, List.nodup_nil⟩ hcongr
    fun _ step hboth ↦ ⟨hboth.1.after step, hboth.1.nodup_uris_boxes_after hboth.2 step⟩
  exact hboth.2

/-- **One event keeps the cells distinct** exactly if it is not a refresh that lists a URI twice,
other than that of an input box. -/
theorem Reachable.nodup_cellUris_handle_iff (h : Reachable d) (hnodup : d.cellUris.Nodup)
    (e : Event) : (d.handle e).1.cellUris.Nodup ↔ ∀ cells taken, e = .refreshed cells →
      d.accepted cells = .ok taken → Readable taken → (taken.others.map Cell.uri).Nodup := by
  have hread := h.readable
  cases e with
  | opened c =>
    refine iff_of_true ?_ (by simp)
    by_cases hc : d.accepts c = .ok true
    · rw [cellUris, cells_handle_opened hread hc]
      exact (hread.nodup_uris_after_iff hnodup (.opened c)).2 (by simp)
    · rwa [handle_opened_of_ne hc]
  | changed uri version edits =>
    refine iff_of_true ?_ (by simp)
    rwa [Document.handle, h.settled.cellUris_changeCell]
  | closed uri =>
    refine iff_of_true ?_ (by simp)
    rw [cellUris, cells_handle_closed hread]
    exact (hread.nodup_uris_after_iff hnodup (.closed uri)).2 (by simp)
  | refreshed cells =>
    rcases htaken : d.accepted cells with f | taken
    · rw [handle_refreshed_of_error (f := f) (by rw [htaken]; rfl)]
      refine iff_of_true hnodup ?_
      rintro _ taken ⟨⟩ htaken'
      rw [htaken] at htaken'
      cases htaken'
    · rw [cellUris, cells_handle_refreshed hread htaken,
        hread.nodup_uris_after_iff hnodup (.replaced taken)]
      constructor
      · rintro hall _ taken' ⟨⟩ htaken'
        rw [htaken] at htaken'
        exact hall taken' (congrArg _ (Except.ok.inj htaken'))
      · rintro hall _ ⟨⟩
        exact hall cells taken rfl htaken

/-- **The cells of a document are distinct** after every event of a run exactly if no refresh of the
run lists a URI twice among the cells that are taken, input boxes apart. One that fails because a
cell cannot be read does not count. -/
theorem forall_nodup_cellUris_run_take_iff {uri : String} {settings : Settings}
    (h : Document.new uri settings = .ok d) (events : List Event) :
    (∀ k, (d.run (events.take k)).cellUris.Nodup) ↔
      ∀ cells taken, .refreshed cells ∈ events → d.accepted cells = .ok taken → Readable taken →
        (taken.others.map Cell.uri).Nodup := by
  have hsound : ∀ (s : Document) (e : Event), Reachable s ∧ d.SameSetup s →
      Reachable (s.handle e).1 ∧ d.SameSetup (s.handle e).1 :=
    fun s e ⟨hs, hsame⟩ ↦ ⟨hs.handle e, hsame.trans (hs.settled.handle e).sameSetup⟩
  have hkeeps : ∀ (s : Document) (e : Event), Reachable s ∧ d.SameSetup s → s.cellUris.Nodup →
      ((s.handle e).1.cellUris.Nodup ↔ ∀ cells taken, e = .refreshed cells →
        d.accepted cells = .ok taken → Readable taken → (taken.others.map Cell.uri).Nodup) := by
    rintro s e ⟨hs, hsame⟩ hnodup
    rw [hs.nodup_cellUris_handle_iff hnodup e]
    simp only [hsame.accepted_eq]
  have hnodup : d.cellUris.Nodup := by
    rw [cellUris, (settled_of_new h).2.1]
    exact List.nodup_nil
  refine (forall_foldl_take_iff hsound hkeeps ⟨.new h, .refl d⟩ hnodup events).trans ⟨?_, ?_⟩
  · intro hall cells taken hmem
    obtain ⟨k, hk⟩ := List.mem_iff_getElem?.1 hmem
    exact hall k _ hk cells taken rfl
  · rintro hall k _ hk cells taken rfl
    exact hall cells taken (List.mem_of_getElem? hk)

/-- An input box and a cell that is not taken may be listed twice. -/
theorem forall_nodup_cellUris_run_take_iff_boxes :
    let box : Cell := ⟨"vscode-interactive-input:/1.interactive#box", "python", 1, "z".toList⟩
    let a : Cell := ⟨"nb-cell:a", "python", 1, "x".toList⟩
    let note : Cell := ⟨"nb-cell:note", "markdown", 1, []⟩
    let events : List Event := [.opened a, .opened a,
      .refreshed [box, note, ⟨"nb-cell:b", "python", 1, []⟩, note, { box with version := 2 }, a],
      .changed "nb-cell:b" 2 [.whole "y".toList], .closed "nb-cell:a"]
    Document.new headed.uri headed.settings = .ok headed ∧
      ∀ k, (headed.run (events.take k)).cellUris.Nodup := by
  intro box a note events
  refine ⟨new_headed, (forall_nodup_cellUris_run_take_iff new_headed events).2 ?_⟩
  intro cells taken hmem htaken _
  obtain rfl : cells =
      [box, note, ⟨"nb-cell:b", "python", 1, []⟩, note, { box with version := 2 }, a] := by
    simpa [events] using hmem
  have haccepted : headed.accepted
      [box, note, ⟨"nb-cell:b", "python", 1, []⟩, note, { box with version := 2 }, a] =
        .ok [box, ⟨"nb-cell:b", "python", 1, []⟩, { box with version := 2 }, a] := by decide +kernel
  obtain rfl := Except.ok.inj (htaken.symm.trans haccepted)
  decide +kernel

/-- **The cells of a document need not be distinct**: a refresh that lists a URI twice is carried
out as it is. -/
theorem exists_run_not_nodup_cellUris :
    ¬ ∀ (uri : String) (settings : Settings) (d : Document) (events : List Event),
      Document.new uri settings = .ok d → (d.run events).cellUris.Nodup := by
  intro hall
  have hnodup := hall _ _ headed
    [.refreshed [⟨"nb-cell:a", "python", 1, "x".toList⟩, ⟨"nb-cell:a", "python", 1, "y".toList⟩]]
    new_headed
  exact absurd hnodup (by decide +kernel)

end Document

end CellStitch
