import CellStitch.Proofs.Document.Change
/-!
# The cells of a document after an event

An edit keeps the cells that a document has, with their URIs and in their order
(`Settled.cellUris_changeCell`), also if it fails. An opened cell is either not taken, and then
nothing happens, or the document has cells afterwards (`cells_ne_nil_of_openCell`).

After any event the document only has cells that it had before or that the event names
(`Settled.mem_cellUris_handle`), also if the event fails.
-/

namespace CellStitch

/-- The URIs of the cells that an event names. -/
def Event.cellUris : Event → List String
  | .opened c => [c.uri]
  | .changed uri _ _ => [uri]
  | .closed uri => [uri]
  | .refreshed cells => cells.map Cell.uri

namespace CellList

/-! ### Where cells come from -/

section Origin

variable {cells cells' : CellList} {x : Cell}

theorem mem_of_mem_splitInputs {others inputs : CellList}
    (h : cells.splitInputs = .ok (others, inputs)) (hx : x ∈ others ∨ x ∈ inputs) : x ∈ cells := by
  induction cells generalizing others inputs with
  | nil =>
    cases h
    exact hx.elim id id
  | cons c cells ih =>
    obtain ⟨input, -, h⟩ := bind_eq_ok_iff.1 h
    obtain ⟨⟨others', inputs'⟩, hrest, h⟩ := bind_eq_ok_iff.1 h
    have ih := ih hrest
    cases input <;> cases h <;> grind

/-- What a refresh leaves was there before or is brought by it. -/
theorem mem_replaceAll {incoming : CellList} (h : cells.replaceAll incoming = .ok cells')
    (hx : x ∈ cells') : x ∈ cells ∨ x ∈ incoming := by
  obtain ⟨⟨others, inputs⟩, hsplit, h⟩ := bind_eq_ok_iff.1 h
  -- the input box that stays is one of the new cells, or else one of the old ones
  have hkept : ∃ kept : CellList, cells' = others ++ kept.getLast?.toList ∧
      ∀ y ∈ kept, y ∈ cells ∨ y ∈ incoming := by
    dsimp only at h
    split at h
    · obtain ⟨kept, hold, h⟩ := bind_eq_ok_iff.1 h
      refine ⟨kept, (Except.ok.inj h).symm, fun y hy ↦ ?_⟩
      rcases hold' : cells.splitInputs with f | ⟨others', inputs'⟩
      · rw [hold'] at hold
        cases hold
      · rw [hold'] at hold
        cases hold
        exact .inl (mem_of_mem_splitInputs hold' (.inr hy))
    · exact ⟨inputs, (Except.ok.inj h).symm, fun y hy ↦
        .inr (mem_of_mem_splitInputs hsplit (.inr hy))⟩
  obtain ⟨kept, rfl, hkept⟩ := hkept
  rcases List.mem_append.1 hx with hx | hx
  · exact .inr (mem_of_mem_splitInputs hsplit (.inl hx))
  · exact hkept x (List.mem_of_getLast? (Option.mem_toList.1 hx))

end Origin

end CellList

namespace Document

variable {d : Document}

/-- An outcome without failure of a step that changes nothing when it fails. -/
theorem eq_ok_of_orKeep {α : Type} {x : Except Failure (Document × α)} {d' : Document} {a : α}
    (h : d.orKeep x = (d', .ok a)) : x = .ok (d', a) := by
  rcases x with f | ⟨d₁, b⟩
  · cases h
  · cases h
    rfl

theorem cells_of_withCells {cells : CellList} {r : Document × Option Update}
    (h : d.withCells cells = .ok r) : r.1.cells = cells := by
  obtain ⟨d', hd', h⟩ := bind_eq_ok_iff.1 h
  obtain rfl := (Except.ok.inj h).symm
  rw [cells_emit, (sameSetup_of_rebuild hd').2.2.1]

/-- **A cell that is opened** is not taken, or its URI is one of the document's then. -/
theorem cellUris_of_openCell {c : Cell} {r : Document × Option Update}
    (h : d.openCell c = .ok r) :
    r = (d, none) ∨ r.1.cellUris.Perm (d.cellUris.insert c.uri) := by
  obtain ⟨taken, -, h⟩ := bind_eq_ok_iff.1 h
  cases taken with
  | false => exact .inl (Except.ok.inj h).symm
  | true =>
    obtain ⟨⟨i, cells⟩, hcells, h⟩ := bind_eq_ok_iff.1 h
    rw [cellUris, cells_of_withCells h]
    exact .inr (CellList.perm_of_openCell hcells)

/-- **A cell that is closed** goes with the first occurrence of its URI. -/
theorem cellUris_of_closeCell {uri : String} {r : Document × Option Update}
    (h : d.closeCell uri = .ok r) : r.1.cellUris = d.cellUris.erase uri := by
  rw [closeCell, CellList.closeCell] at h
  rcases hcell : d.cells.cell? uri with - | c <;> rw [hcell] at h
  · cases h
    refine (List.erase_of_not_mem fun hmem ↦ ?_).symm
    obtain ⟨x, hx, huri⟩ := List.mem_map.1 hmem
    exact CellList.cell?_eq_none_iff.1 hcell x hx huri
  · rw [cellUris, cells_of_withCells h, CellList.map_uri_remove]
    rfl

theorem cells_eq_nil_iff_cellUris : d.cells = [] ↔ d.cellUris = [] := by
  rw [cellUris, List.map_eq_nil_iff]

/-- **A cell that is opened** does nothing, or there are cells afterwards. -/
theorem cells_ne_nil_of_openCell {c : Cell} {r : Document × Option Update}
    (h : d.openCell c = .ok r) : r = (d, none) ∨ r.1.cells ≠ [] := by
  refine (cellUris_of_openCell h).imp_right fun hperm hnone ↦ ?_
  have hmem : c.uri ∈ r.1.cellUris := hperm.mem_iff.2 List.mem_insert_self
  rw [cells_eq_nil_iff_cellUris.1 hnone] at hmem
  exact absurd hmem List.not_mem_nil

/-- **A change keeps the cells** and their order, also if it fails. -/
theorem Settled.cellUris_changeCell (hd : d.Settled) (uri : String) (version : Int)
    (edits : List Edit) : (d.changeCell uri version edits).1.cellUris = d.cellUris := by
  show (d.handle (.changed uri version edits)).1.cells.map Cell.uri = d.cells.map Cell.uri
  rw [(hd.handle_changed uri version edits).1]
  exact CellList.map_uri_update fun c huri ↦ (Cell.uri_changed c).trans huri

/-! ### Cells that stay -/

section Kept

variable {d' : Document} {x : Except Failure (Option Update)} {uri : String}

/-- A cell that is opened takes no other away. -/
theorem mem_cellUris_of_opened {c : Cell} (hstep : d.handle (.opened c) = (d', x))
    (h : uri ∈ d.cellUris) : uri ∈ d'.cellUris := by
  rw [handle] at hstep
  rcases hopen : d.openCell c with f | r <;> rw [hopen] at hstep <;> cases hstep
  · exact h
  · rcases cellUris_of_openCell hopen with heq | hperm
    · obtain rfl : r.1 = d := congrArg Prod.fst heq
      exact h
    · exact hperm.mem_iff.2 (List.mem_insert_of_mem h)

/-- A cell that is closed takes no other away. -/
theorem mem_cellUris_of_closed {closed : String} (hstep : d.handle (.closed closed) = (d', x))
    (h : uri ∈ d.cellUris) (hne : uri ≠ closed) : uri ∈ d'.cellUris := by
  rw [handle] at hstep
  rcases hclose : d.closeCell closed with f | r <;> rw [hclose] at hstep <;> cases hstep
  · exact h
  · rw [cellUris_of_closeCell hclose]
    exact (List.mem_erase_of_ne hne).2 h

/-- A cell that is closed without failure goes with the first occurrence of its URI. -/
theorem cellUris_of_closed {closed : String} (hstep : d.handle (.closed closed) = (d', x))
    (hok : x.isOk = true) : d'.cellUris = d.cellUris.erase closed := by
  rw [handle] at hstep
  rcases hclose : d.closeCell closed with f | r <;> rw [hclose] at hstep <;> cases hstep
  · cases hok
  · exact cellUris_of_closeCell hclose

/-- A change leaves every URI in its place, also one that fails. -/
theorem Settled.cellUris_of_changed (hd : d.Settled) {version : Int} {edits : List Edit}
    (hstep : d.handle (.changed uri version edits) = (d', x)) : d'.cellUris = d.cellUris := by
  have hd' : (d.changeCell uri version edits).1 = d' := congrArg Prod.fst hstep
  rw [← hd.cellUris_changeCell uri version edits, hd']

end Kept

/-! ### Where cells come from -/

theorem mem_of_mem_accepted {cells taken : CellList} (h : d.accepted cells = .ok taken) {x : Cell}
    (hx : x ∈ taken) : x ∈ cells := by
  induction cells generalizing taken with
  | nil =>
    cases h
    exact hx
  | cons c cells ih =>
    obtain ⟨accepts, -, h⟩ := bind_eq_ok_iff.1 h
    obtain ⟨rest, hrest, h⟩ := bind_eq_ok_iff.1 h
    have ih := ih hrest
    cases accepts <;> cases h <;> grind

section Origin

variable {r : Document × Option Update} {uri : String}

/-- Opening adds the URI of the cell at most. -/
theorem mem_cellUris_of_openCell {c : Cell} (h : d.openCell c = .ok r) (huri : uri ∈ r.1.cellUris) :
    uri ∈ d.cellUris ∨ uri ∈ [c.uri] := by
  rcases cellUris_of_openCell h with rfl | hperm
  · exact .inl huri
  · rw [List.mem_singleton]
    exact (List.mem_insert_iff.1 (hperm.mem_iff.1 huri)).symm

theorem mem_cellUris_of_closeCell {closed : String} (h : d.closeCell closed = .ok r)
    (huri : uri ∈ r.1.cellUris) : uri ∈ d.cellUris := by
  rw [cellUris_of_closeCell h] at huri
  exact List.mem_of_mem_erase huri

/-- A refresh leaves no URI that was not there before or is brought by it. -/
theorem mem_cellUris_of_refresh {cells : List Cell} (h : d.refresh cells = .ok r)
    (huri : uri ∈ r.1.cellUris) : uri ∈ d.cellUris ∨ uri ∈ cells.map Cell.uri := by
  obtain ⟨taken, htaken, h⟩ := bind_eq_ok_iff.1 h
  obtain ⟨cells', hcells, h⟩ := bind_eq_ok_iff.1 h
  obtain ⟨d', hd', h⟩ := bind_eq_ok_iff.1 h
  cases h
  rw [cellUris, cells_emit, (sameSetup_of_rebuild hd').2.2.1] at huri
  obtain ⟨x, hx, rfl⟩ := List.mem_map.1 huri
  exact (CellList.mem_replaceAll hcells hx).imp List.mem_map_of_mem fun hx ↦
    List.mem_map_of_mem (mem_of_mem_accepted htaken hx)

/-- A step that changes nothing when it fails need only be looked at when it does not. -/
theorem mem_cellUris_orKeep {α : Type} {x : Except Failure (Document × α)} {named : List String}
    (huri : uri ∈ (d.orKeep x).1.cellUris)
    (h : ∀ r, x = .ok r → uri ∈ r.1.cellUris → uri ∈ d.cellUris ∨ uri ∈ named) :
    uri ∈ d.cellUris ∨ uri ∈ named := by
  rcases x with f | r
  · exact .inl huri
  · exact h r rfl huri

/-- **No cells but those of the document and those that the event names**, also if the event
fails. -/
theorem Settled.mem_cellUris_handle (hd : d.Settled) {e : Event}
    (huri : uri ∈ (d.handle e).1.cellUris) : uri ∈ d.cellUris ∨ uri ∈ e.cellUris := by
  cases e with
  | opened c => exact mem_cellUris_orKeep huri fun _ h ↦ mem_cellUris_of_openCell h
  | changed uri' version edits =>
    rw [Document.handle, hd.cellUris_changeCell] at huri
    exact .inl huri
  | closed uri' => exact mem_cellUris_orKeep huri fun _ h ↦ .inl ∘ mem_cellUris_of_closeCell h
  | refreshed cells => exact mem_cellUris_orKeep huri fun _ h ↦ mem_cellUris_of_refresh h

end Origin

end Document

end CellStitch
