import CellStitch.Proofs.Cell.Order
/-!
# The URIs of cells in order

What the operations on cells in order do to their URIs. To change a cell keeps all URIs, to close
one erases the first occurrence of its URI (`map_uri_remove`), and to open one inserts its URI if it
is not there yet (`perm_of_openCell`).
-/

namespace CellStitch.CellList

variable {cells cells' : CellList} {uri : String} {c : Cell} {i : Nat}

theorem map_uri_update {f : Cell → Cell} (hf : ∀ c, c.uri = uri → (f c).uri = uri) :
    (cells.update uri f).map Cell.uri = cells.map Cell.uri := by
  induction cells with
  | nil => rfl
  | cons c cells ih =>
    rw [update]
    split
    · rename_i huri
      rw [List.map_cons, List.map_cons, hf c huri, huri]
    · rw [List.map_cons, List.map_cons, ih]

/-- To open a cell again keeps all URIs. -/
theorem map_uri_reopened (cells : CellList) (c : Cell) :
    (cells.update c.uri fun old ↦ { c with version := max (old.version + 1) c.version }).map
      Cell.uri = cells.map Cell.uri :=
  map_uri_update fun _ _ ↦ rfl

theorem map_uri_remove (cells : CellList) (uri : String) :
    (cells.remove uri).map Cell.uri = (cells.map Cell.uri).erase uri := by
  induction cells with
  | nil => rfl
  | cons c cells ih =>
    rw [remove, List.map_cons]
    split
    · rename_i huri
      rw [huri, List.erase_cons_head]
    · rename_i hne
      rw [List.erase_cons_tail (by simpa using hne), List.map_cons, ih]

theorem cell?_eq_none_of_indexOf? (h : cells.indexOf? uri = none) : cells.cell? uri = none := by
  rw [indexOf?, List.findIdx?_eq_none_iff] at h
  exact cell?_eq_none_iff.2 fun c hc ↦ by simpa using h c hc

/-- A cell is found by its URI where no cell in front of it has the same one. -/
theorem cell?_eq_of_getElem? (hc : cells[i]? = some c) (h : ∀ x ∈ cells.take i, x.uri ≠ c.uri) :
    cells.cell? c.uri = some c := by
  obtain ⟨hi, hget⟩ := List.getElem?_eq_some_iff.1 hc
  have hcells : cells = cells.take i ++ c :: cells.drop (i + 1) := by
    rw [← hget, List.getElem_cons_drop, List.take_append_drop]
  exact FirstAt.cell? ⟨hcells, rfl, h⟩

/-- There is a cell with a URI exactly if the URI is one of theirs. -/
theorem has_iff : cells.has uri = true ↔ uri ∈ cells.map Cell.uri := by
  rw [has, indexOf?, List.findIdx?_isSome, List.any_eq_true, List.mem_map]
  simp only [beq_iff_eq]

/-- **Opening a cell** replaces it where it stands, or puts it somewhere if it is not there. -/
theorem openCell_cases (h : cells.openCell c = .ok (i, cells')) :
    (cells.indexOf? c.uri = some i ∧ cells' = cells.update c.uri fun old ↦
      { c with version := max (old.version + 1) c.version }) ∨
    (cells.cell? c.uri = none ∧ (∃ input, c.isInput = .ok input) ∧
      cells' = cells.take i ++ c :: cells.drop i) := by
  rw [openCell] at h
  rcases hindex : cells.indexOf? c.uri with - | j <;> rw [hindex] at h
  · obtain ⟨input, hinput, h⟩ := bind_eq_ok_iff.1 h
    refine .inr ⟨cell?_eq_none_of_indexOf? hindex, ⟨input, hinput⟩, ?_⟩
    -- whether or not the cell is an input box, it is put somewhere
    split at h
    all_goals
      obtain ⟨before, -, h⟩ := bind_eq_ok_iff.1 h
      cases h
      rfl
  · cases h
    exact .inl ⟨rfl, rfl⟩

/-- **Opening a cell inserts its URI**, if it is not there yet. -/
theorem perm_of_openCell (h : cells.openCell c = .ok (i, cells')) :
    (cells'.map Cell.uri).Perm ((cells.map Cell.uri).insert c.uri) := by
  rcases openCell_cases h with ⟨hindex, rfl⟩ | ⟨hnone, -, rfl⟩
  · obtain ⟨before, c', after, hfirst, -, -⟩ := exists_firstAt_of_indexOf? hindex
    have hmem : c.uri ∈ cells.map Cell.uri := by
      rw [hfirst.cells_eq, ← hfirst.uri_eq]
      simp
    rw [map_uri_reopened, List.insert_of_mem hmem]
  · have hnot : c.uri ∉ cells.map Cell.uri := by
      intro hmem
      obtain ⟨x, hx, huri⟩ := List.mem_map.1 hmem
      exact cell?_eq_none_iff.1 hnone x hx huri
    rw [List.insert_of_not_mem hnot, List.map_append, List.map_cons]
    refine List.perm_middle.trans ?_
    rw [← List.map_append, List.take_append_drop]

end CellStitch.CellList
