import CellStitch.Proofs.Document.FailedChange
/-!
# What decides a document

A settled document is decided by its setup, its cells and its version (`Settled.eq_of_cells_eq`).
Of the cells, the URIs alone decide whether they can be laid out at all (`map_spansFrom_zero`), and
the text is the header, if it stands in front of the first cell, with the rendered texts behind it
(`Settled.text_eq_shownBy`). The version counts the events that are told
(`Settled.version_handle`).
-/

namespace CellStitch

namespace Document

variable {d d' : Document}

/-- **Settled documents with the same setup, cells and version are the same.** -/
theorem Settled.eq_of_cells_eq (hd : d.Settled) (hd' : d'.Settled) (hsame : d.SameSetup d')
    (hcells : d'.cells = d.cells) (hversion : d'.version = d.version) : d' = d := by
  have hspans : d'.spans = d.spans := by
    have h := hd'.spans_eq
    rw [hsame.spansFrom_eq, hcells, hd.spans_eq] at h
    exact (Except.ok.inj h).symm
  have htext : d'.text = d.text := by rw [hd'.text_eq, hspans, hd.text_eq]
  have hstarts : d'.lineStarts = d.lineStarts := by
    rw [hd'.lineStarts_eq, htext, hd.lineStarts_eq]
  rcases d with ⟨uri, settings, header, cells, spans, text, starts, version⟩
  rcases d' with ⟨uri', settings', header', cells', spans', text', starts', version'⟩
  rw [Document.mk.injEq]
  exact ⟨hsame.uri_eq, hsame.settings_eq, hsame.header_eq, hcells, hspans, htext, hstarts, hversion⟩

/-! ### Whether cells can be laid out -/

/-- Behind the start of the document no URI is looked at. -/
theorem exists_spansFrom (d : Document) {offset : Int} (hpos : 0 < offset) (cells : CellList) :
    ∃ spans, d.spansFrom offset cells = .ok spans := by
  induction cells generalizing offset with
  | nil => exact ⟨[], rfl⟩
  | cons c cells ih =>
    have hpos' : 0 < offset + (Piece.shown (d.piecesAt c offset)).length := by omega
    obtain ⟨rest, hrest⟩ := ih hpos'
    exact ⟨_, d.spansFrom_cons_eq_ok_iff.2 ⟨fun h0 ↦ by omega, rest, hrest, rfl⟩⟩

/-- **Only the URI of the first cell can be in the way.** -/
theorem map_spansFrom_zero (d : Document) (cells : CellList) :
    (d.spansFrom 0 cells).map (fun _ ↦ ()) =
      match cells.map Cell.uri with
      | [] => .ok ()
      | uri :: _ => (isInput uri).map fun _ ↦ () := by
  rcases cells with - | ⟨c, cells⟩
  · rfl
  · show _ = (isInput c.uri).map fun _ ↦ ()
    rcases hin : isInput c.uri with f | input
    · have hfails : d.spansOf c 0 = .error f := by
        rw [spansOf, layOut, if_pos rfl, hin]
        rfl
      rw [spansFrom, hfails]
      rfl
    · have hpos : (0 : Int) < 0 + (Piece.shown (d.piecesAt c 0)).length := by
        have hlength := length_shown_piecesAt_pos d c 0
        omega
      obtain ⟨rest, hrest⟩ := d.exists_spansFrom hpos cells
      rw [d.spansFrom_cons_eq_ok_iff.2 ⟨fun _ ↦ ⟨input, hin⟩, rest, hrest, rfl⟩]
      rfl

/-- Whether cells can be taken over is decided by their URIs. -/
theorem map_withCells (hsame : d.SameSetup d') {cells cells' : CellList}
    (h : cells'.map Cell.uri = cells.map Cell.uri) :
    (d'.withCells cells').map (fun _ ↦ ()) = (d.withCells cells).map fun _ ↦ () := by
  have hspans : ∀ (d : Document) (cells : CellList), (d.withCells cells).map (fun _ ↦ ()) =
      (d.spansFrom 0 cells).map fun _ ↦ () := by
    intro d cells
    have hsame' : d.SameSetup { d with cells := cells } := ⟨rfl, rfl, rfl⟩
    rw [withCells, rebuild, ← hsame'.spansFrom_eq]
    show _ = Except.map _ (({ d with cells := cells } : Document).spansFrom 0 cells)
    rcases ({ d with cells := cells } : Document).spansFrom 0 cells with f | spans <;> rfl
  rw [hspans, hspans, hsame.spansFrom_eq, map_spansFrom_zero, map_spansFrom_zero, h]

/-! ### The text -/

/-- The header, if there is a cell in front of which it stands. -/
def leadingHeader (d : Document) : Text :=
  match d.cells with
  | [] => []
  | c :: _ => d.headerAt c.uri 0

/-- The text that cells show, with the header if it stands in front of the first of them. -/
def shownBy (d : Document) (cells : CellList) : Text :=
  ({ d with cells := cells } : Document).leadingHeader ++
    cells.flatMap fun c ↦ Rendering.text d.settings.marks c.text ++ ['\n']

/-- Behind the start of the document there is no header. -/
theorem flatMap_textOf_of_pos {cells : CellList} {offset : Int} {spans : List (List Span)}
    (hpos : 0 < offset) (h : d.spansFrom offset cells = .ok spans) :
    spans.flatMap Span.textOf =
      cells.flatMap fun c ↦ Rendering.text d.settings.marks c.text ++ ['\n'] := by
  induction cells generalizing offset spans with
  | nil =>
    obtain rfl := Except.ok.inj h
    rfl
  | cons c cells ih =>
    have hlength := length_shown_piecesAt_pos d c offset
    obtain ⟨-, rest, hrest, rfl⟩ := d.spansFrom_cons_eq_ok_iff.1 h
    rw [List.flatMap_cons, List.flatMap_cons, Span.textOf_place, shown_piecesAt,
      headerAt_of_ne_zero d c.uri (Int.ne_of_gt hpos), ih (by omega) hrest]
    rfl

/-- **The text of a settled document is what its cells show.** -/
theorem Settled.text_eq_shownBy (hd : d.Settled) : d.text = d.shownBy d.cells := by
  have hspans := hd.spans_eq
  rw [hd.text_eq, shownBy, leadingHeader]
  rcases hcells : d.cells with - | ⟨c, cells⟩ <;> rw [hcells] at hspans
  · obtain hnone : [] = d.spans := Except.ok.inj hspans
    rw [← hnone]
    rfl
  · have hlength := length_shown_piecesAt_pos d c 0
    obtain ⟨-, rest, hrest, hfirst⟩ := d.spansFrom_cons_eq_ok_iff.1 hspans
    rw [hfirst, List.flatMap_cons, List.flatMap_cons, Span.textOf_place, shown_piecesAt,
      flatMap_textOf_of_pos (by omega) hrest, List.append_assoc]
    rfl

/-- **Without input boxes** the text is the header and the cells, rendered line by line. -/
theorem Settled.text_eq_document (hd : d.Settled) {h : Text}
    (hheader : d.headerText = Rendering.header h) (hinput : ∀ c ∈ d.cells, c.isInput = .ok false) :
    d.text = Rendering.document h d.settings.marks (d.cells.map Cell.text) := by
  rw [hd.text_eq_shownBy, shownBy, Rendering.document]
  rcases hcells : d.cells with - | ⟨c, cells⟩
  · rfl
  · have hc : isInput c.uri = .ok false := hinput c (hcells ▸ List.mem_cons_self)
    have hlead : ({ d with cells := c :: cells } : Document).leadingHeader = Rendering.header h := by
      show headerAt _ c.uri 0 = _
      rw [headerAt, hc, ← hheader]
      rfl
    rw [hlead, List.flatMap_map]
    rfl

theorem SameSetup.shownBy_eq (hsame : d.SameSetup d') (cells : CellList) :
    d'.shownBy cells = d.shownBy cells := by
  rw [shownBy, shownBy, hsame.settings_eq]
  congr 1
  rcases cells with - | ⟨c, cells⟩
  · rfl
  · show d'.headerAt c.uri 0 = d.headerAt c.uri 0
    rw [headerAt, headerAt, headerText, headerText, hsame.header_eq]

/-! ### What is told -/

/-- Of cells that are taken over something is told exactly if the text is another one then. -/
theorem isSome_of_withCells {cells : CellList} {r : Document × Option Update}
    (h : d.withCells cells = .ok r) : r.2.isSome = true ↔ r.1.text ≠ d.text := by
  obtain ⟨rebuilt, -, h⟩ := bind_eq_ok_iff.1 h
  obtain rfl := Except.ok.inj h
  rw [isSome_emit, text_emit]
  rcases hedit : Edit.between d.text rebuilt.text with - | e
  · simp [Edit.between_eq_none_iff.1 hedit]
  · have hne : rebuilt.text ≠ d.text := by
      intro heq
      rw [Edit.between_eq_none_iff.2 heq.symm] at hedit
      cases hedit
    simp [hne]

/-- A step that changes nothing when it fails. -/
theorem eq_self_of_orKeep {α : Type} {x : Except Failure (Document × α)} {f : Failure}
    (h : d.orKeep x = (d', .error f)) : d' = d := by
  rcases x with g | ⟨d₁, a⟩
  · exact (congrArg Prod.fst h).symm
  · cases h

/-- An event that fails is not counted. -/
theorem Settled.version_of_handle_eq_error (hd : d.Settled) {e : Event} {f : Failure}
    (h : d.handle e = (d', .error f)) : d'.version = d.version := by
  cases e with
  | opened c => rw [eq_self_of_orKeep h]
  | changed uri version edits =>
    -- what stays of the edits has the same version
    obtain ⟨c, -, -, hrun⟩ := changeCell_eq_error_iff.1 h
    obtain ⟨done, e, rest, out, -, hdone, -⟩ := exists_of_editCells_eq_error hrun
    have hsound := (hd.editCells uri version done).2.2 out
    rw [hdone] at hsound
    exact (hsound rfl).version_eq
  | closed uri => rw [eq_self_of_orKeep h]
  | refreshed cells => rw [eq_self_of_orKeep h]

/-- **The version counts the events that are told.** -/
theorem Settled.version_handle (hd : d.Settled) (e : Event) : (d.handle e).1.version =
    d.version + if (d.handle e).2.map Option.isSome = .ok true then 1 else 0 := by
  rcases h : d.handle e with ⟨d', f | update⟩
  · exact hd.version_of_handle_eq_error h
  · have hannounces := (hd.soundStep_of_handle h).announces
    rcases update with - | u
    · exact hannounces.2
    · exact hannounces.2.2.1

end Document

end CellStitch
