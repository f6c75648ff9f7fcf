import CellStitch.Proofs.Cell.Uris
/-!
# Cells apart

A change of the cell with a URI that keeps the URI says nothing about the other cells. It can be
made before or after another cell is changed, closed or opened (`update_update`, `remove_update`,
`openCell_update`), since where that cell stands, or is put, depends on the URIs alone.

In turn these operations put a stretch of cells in place of another, and no cell of either stretch
has the URI (`Splice`). So the cell is the same afterwards (`Splice.cell?_after`), and a change of
it leaves both stretches as they are (`Splice.before_update`, `Splice.after_update`).
-/

namespace CellStitch.CellList

/-- A cell is looked for from the front. -/
theorem cell?_cons (c : Cell) (cells : CellList) (uri : String) :
    CellList.cell? (c :: cells) uri = if c.uri = uri then some c else cells.cell? uri := by
  rw [cell?, cell?, List.find?_cons]
  split
  · rename_i h
    rw [if_pos (beq_iff_eq.1 h)]
  · rename_i h
    rw [if_neg (beq_eq_false_iff_ne.1 h)]

/-- An update of a cell that is not there changes nothing. -/
theorem update_eq_self {cells : CellList} {uri : String} (h : cells.cell? uri = none)
    (g : Cell → Cell) : cells.update uri g = cells := by
  induction cells with
  | nil => rfl
  | cons c cells ih =>
    rw [cell?_cons] at h
    split at h
    · cases h
    · rename_i hne
      rw [update, if_neg hne, ih h]

/-- A change that leaves its cell as it is leaves all cells as they are. -/
theorem FirstAt.update_eq_self {cells before after : CellList} {uri : String} {c : Cell}
    (h : cells.FirstAt uri before c after) {g : Cell → Cell} (hg : g c = c) :
    cells.update uri g = cells := by
  rw [h.update, hg, h.cells_eq]

/-- Taking the first cell with a URI away leaves those before it and those behind it. -/
theorem FirstAt.remove {cells before after : CellList} {uri : String} {c : Cell}
    (h : cells.FirstAt uri before c after) : cells.remove uri = before ++ after := by
  obtain ⟨rfl, rfl, hfresh⟩ := h
  induction before with
  | nil => simp [CellList.remove]
  | cons x before ih =>
    rw [List.cons_append, CellList.remove, if_neg (hfresh x List.mem_cons_self),
      ih fun y hy ↦ hfresh y (List.mem_cons_of_mem x hy), List.cons_append]

/-- Where a new cell is put. -/
def newPlace (cells : CellList) (c : Cell) : Except Failure Nat := do
  let before ← if ← c.isInput then pure false else cells.endsWithInput
  pure (if before then cells.length - 1 else cells.length)

/-- A new cell is put at a place that its URI and the last cell decide. -/
theorem openCell_eq_map_newPlace {cells : CellList} {c : Cell}
    (h : cells.indexOf? c.uri = none) : cells.openCell c =
      (cells.newPlace c).map fun i ↦ (i, cells.take i ++ c :: cells.drop i) := by
  rw [openCell, h, newPlace]
  rcases c.isInput with f | input
  · rfl
  · cases input with
    | true => rfl
    | false => rcases cells.endsWithInput with f | before <;> rfl

/-! ### A change and an operation on another cell -/

section Apart

variable {u w : String} {g : Cell → Cell} (cells : CellList)

/-- A change is one of the first of two lists of cells, if the URI occurs there. -/
theorem update_append (back : CellList) (u : String) (g : Cell → Cell) :
    CellList.update u g (cells ++ back) =
      if u ∈ cells.map Cell.uri then cells.update u g ++ back else cells ++ back.update u g := by
  induction cells with
  | nil => rfl
  | cons c cells ih =>
    rw [List.cons_append, update]
    split
    · rename_i huri
      rw [if_pos (by simp [huri]), update, if_pos huri, List.cons_append]
    · rename_i hne
      have hmem : u ∈ (c :: cells).map Cell.uri ↔ u ∈ cells.map Cell.uri := by
        simp [Ne.symm hne]
      rw [ih, update, if_neg hne]
      simp only [hmem]
      split <;> rfl

/-- An update passes over cells with other URIs. -/
theorem update_append_of_forall_ne {old : CellList} (hold : ∀ c ∈ old, c.uri ≠ u) :
    CellList.update u g (old ++ cells) = old ++ cells.update u g := by
  rw [update_append, if_neg]
  rintro hmem
  obtain ⟨c, hc, huri⟩ := List.mem_map.1 hmem
  exact hold c hc huri

/-- A cell can be put somewhere before or after another is changed. -/
theorem update_take_cons_drop {c : Cell} (hc : c.uri ≠ u) (i : Nat) :
    CellList.update u g (cells.take i ++ c :: cells.drop i) =
      (cells.update u g).take i ++ c :: (cells.update u g).drop i := by
  induction cells generalizing i with
  | nil => simp [update, hc]
  | cons x cells ih =>
    rcases i with - | i
    · show CellList.update u g (c :: x :: cells) = c :: CellList.update u g (x :: cells)
      rw [update, if_neg hc]
    · show CellList.update u g (x :: (cells.take i ++ c :: cells.drop i)) = _
      rw [update, update]
      split
      · rfl
      · rw [ih]
        rfl

section KeepsUri

variable (hg : ∀ c, c.uri = u → (g c).uri = u)
include hg

/-- Where a cell stands depends on the URIs. -/
theorem indexOf?_update (w : String) : (cells.update u g).indexOf? w = cells.indexOf? w := by
  have hindex : ∀ cells : CellList,
      cells.indexOf? w = (cells.map Cell.uri).findIdx? (· == w) := by
    intro cells
    rw [List.findIdx?_map]
    rfl
  rw [hindex, hindex, map_uri_update hg]

/-- An update keeps the number of cells. -/
theorem length_update : (cells.update u g).length = cells.length := by
  rw [← List.length_map (f := Cell.uri), map_uri_update hg, List.length_map]

/-- An update keeps whether the last cell is a box, since it keeps the URIs. -/
theorem endsWithInput_update : (cells.update u g).endsWithInput = cells.endsWithInput := by
  have hends : ∀ cells : CellList, cells.endsWithInput =
      ((cells.map Cell.uri).getLast?.map isInput).getD (.ok false) := by
    intro cells
    rw [endsWithInput, List.getLast?_map]
    rcases cells.getLast? with - | c <;> rfl
  rw [hends, hends, map_uri_update hg]

/-- An update of one cell has no part in what is found by another URI. -/
theorem cell?_update (hne : w ≠ u) : (cells.update u g).cell? w = cells.cell? w := by
  induction cells with
  | nil => rfl
  | cons c cells ih =>
    rw [update]
    split
    · rename_i huri
      rw [cell?_cons, cell?_cons, if_neg (hg c huri ▸ hne.symm), if_neg (huri ▸ hne.symm)]
    · rw [cell?_cons, cell?_cons, ih]

/-- **Changes of two cells can be made in either order.** -/
theorem update_update (hne : w ≠ u) {k : Cell → Cell} (hk : ∀ c, c.uri = w → (k c).uri = w) :
    (cells.update u g).update w k = (cells.update w k).update u g := by
  induction cells with
  | nil => rfl
  | cons c cells ih =>
    rcases Decidable.em (c.uri = u) with huri | hu
    · rw [update, if_pos huri, update, if_neg (hg c huri ▸ hne.symm), update,
        if_neg (huri ▸ hne.symm), update, if_pos huri]
    · rw [update, if_neg hu]
      rcases Decidable.em (c.uri = w) with huri | hw
      · rw [update, if_pos huri, update, if_pos huri, update, if_neg (hk c huri ▸ hne)]
      · rw [update, if_neg hw, update, if_neg hw, update, if_neg hu, ih]

/-- **A cell can be taken away before or after another is changed.** -/
theorem remove_update (hne : w ≠ u) :
    (cells.update u g).remove w = (cells.remove w).update u g := by
  induction cells with
  | nil => rfl
  | cons c cells ih =>
    rcases Decidable.em (c.uri = u) with huri | hu
    · rw [update, if_pos huri, remove, if_neg (hg c huri ▸ hne.symm), remove,
        if_neg (huri ▸ hne.symm), update, if_pos huri]
    · rw [update, if_neg hu, remove, remove]
      split
      · rfl
      · rw [update, if_neg hu, ih]

/-- **A cell can be opened before or after another is changed.** -/
theorem openCell_update {c : Cell} (hc : c.uri ≠ u) : (cells.update u g).openCell c =
    (cells.openCell c).map fun r ↦ (r.1, r.2.update u g) := by
  rcases hindex : cells.indexOf? c.uri with - | i
  · rw [openCell_eq_map_newPlace hindex,
      openCell_eq_map_newPlace ((indexOf?_update cells hg c.uri).trans hindex), newPlace,
      endsWithInput_update cells hg, length_update cells hg, ← newPlace]
    rcases cells.newPlace c with f | i
    · rfl
    · exact congrArg (fun cells' ↦ Except.ok (i, cells')) (update_take_cons_drop cells hc i).symm
  · rw [openCell, openCell, indexOf?_update cells hg, hindex]
    show Except.ok _ = Except.ok _
    rw [update_update cells hg hc]
    intro x hx
    rfl

end KeepsUri

end Apart

/-! ### Splices -/

/-- A stretch of cells in place of another, between cells that stay. No cell of either stretch has
the URI. -/
structure Splice (uri : String) where
  front : CellList
  old : CellList
  new : CellList
  back : CellList
  uri_ne_of_mem_old : ∀ c ∈ old, c.uri ≠ uri
  uri_ne_of_mem_new : ∀ c ∈ new, c.uri ≠ uri

namespace Splice

variable {uri : String} (s : Splice uri)

/-- The cells with the old stretch. -/
def before : CellList := s.front ++ s.old ++ s.back

/-- The cells with the new stretch. -/
def after : CellList := s.front ++ s.new ++ s.back

/-- A cell is looked for in what stays. -/
theorem cell?_append (front back : CellList) {middle : CellList}
    (h : ∀ c ∈ middle, c.uri ≠ uri) :
    CellList.cell? (front ++ middle ++ back) uri = CellList.cell? (front ++ back) uri := by
  have hnone : middle.find? (·.uri == uri) = none := cell?_eq_none_iff.2 h
  simp [CellList.cell?, hnone]

/-- **A splice does not touch the cell** with the URI. -/
theorem cell?_after : s.after.cell? uri = s.before.cell? uri := by
  rw [before, after, cell?_append _ _ s.uri_ne_of_mem_old, cell?_append _ _ s.uri_ne_of_mem_new]

/-! ### A change of the cell -/

/-- The splice with the cell changed, wherever it stands. -/
def update (g : Cell → Cell) : Splice uri :=
  if uri ∈ s.front.map Cell.uri then { s with front := s.front.update uri g }
  else { s with back := s.back.update uri g }

/-- An update of the cell leaves the old stretch. -/
@[simp] theorem old_update (g : Cell → Cell) : (s.update g).old = s.old := by
  rw [update]
  split <;> rfl

/-- An update of the cell leaves the new stretch. -/
@[simp] theorem new_update (g : Cell → Cell) : (s.update g).new = s.new := by
  rw [update]
  split <;> rfl

/-- An update keeps the URIs in front of the splice. -/
theorem map_uri_front_update {g : Cell → Cell} (hg : ∀ c, c.uri = uri → (g c).uri = uri) :
    (s.update g).front.map Cell.uri = s.front.map Cell.uri := by
  rw [update]
  split
  · exact map_uri_update hg
  · rfl

/-- An update keeps the URIs behind the splice. -/
theorem map_uri_back_update {g : Cell → Cell} (hg : ∀ c, c.uri = uri → (g c).uri = uri) :
    (s.update g).back.map Cell.uri = s.back.map Cell.uri := by
  rw [update]
  split
  · rfl
  · exact map_uri_update hg

/-- Updating a splice updates the cells with the old stretch. -/
theorem before_update (g : Cell → Cell) : (s.update g).before = s.before.update uri g := by
  rw [before, before, update, List.append_assoc s.front, update_append]
  split
  · rw [List.append_assoc]
  · rw [update_append_of_forall_ne _ s.uri_ne_of_mem_old, List.append_assoc]

/-- Updating a splice updates the cells with the new stretch. -/
theorem after_update (g : Cell → Cell) : (s.update g).after = s.after.update uri g := by
  rw [after, after, update, List.append_assoc s.front, update_append]
  split
  · rw [List.append_assoc]
  · rw [update_append_of_forall_ne _ s.uri_ne_of_mem_new, List.append_assoc]

end Splice

/-! ### Operations on another cell -/

section OtherCell

variable {u w : String} {cells : CellList}

/-- Nothing is put in place of nothing. -/
theorem exists_splice_self (u : String) (cells : CellList) :
    ∃ s : Splice u, s.before = cells ∧ s.after = cells := by
  have hnil : ∀ c ∈ ([] : CellList), c.uri ≠ u := fun c hc ↦ absurd hc List.not_mem_nil
  have hcells : cells ++ [] ++ [] = cells := by rw [List.append_nil, List.append_nil]
  exact ⟨⟨cells, [], [], [], hnil, hnil⟩, hcells, hcells⟩

/-- Other cells in place of the first one with another URI. -/
theorem FirstAt.exists_splice {before after : CellList} {c : Cell}
    (h : cells.FirstAt w before c after) (hne : w ≠ u) {new : CellList}
    (hnew : ∀ x ∈ new, x.uri ≠ u) :
    ∃ s : Splice u, s.before = cells ∧ s.after = before ++ new ++ after := by
  have hold : ∀ x ∈ [c], x.uri ≠ u := by
    intro x hx
    rw [List.mem_singleton.1 hx, h.uri_eq]
    exact hne
  refine ⟨⟨before, [c], new, after, hold, hnew⟩, ?_, rfl⟩
  exact (List.append_assoc before [c] after).trans h.cells_eq.symm

/-- An update of another cell is a splice: the cell before in the old stretch, and the cell after in
the new one. -/
theorem exists_splice_update (cells : CellList) (hne : w ≠ u) {k : Cell → Cell}
    (hk : ∀ c, c.uri = w → (k c).uri = w) :
    ∃ s : Splice u, s.before = cells ∧ s.after = cells.update w k := by
  rcases hcell : cells.cell? w with - | c
  · rw [update_eq_self hcell]
    exact exists_splice_self u cells
  · obtain ⟨before, after, hfirst⟩ := exists_firstAt hcell
    have hnew : ∀ x ∈ [k c], x.uri ≠ u := by
      intro x hx
      rw [List.mem_singleton.1 hx, hk c hfirst.uri_eq]
      exact hne
    rw [hfirst.update, List.append_cons]
    exact hfirst.exists_splice hne hnew

/-- Removing another cell is a splice with an empty new stretch. -/
theorem exists_splice_remove (hne : w ≠ u) {c : Cell} (hc : cells.cell? w = some c) :
    ∃ s : Splice u, s.before = cells ∧ s.after = cells.remove w := by
  obtain ⟨before, after, hfirst⟩ := exists_firstAt hc
  have hnil : ∀ x ∈ ([] : CellList), x.uri ≠ u := fun x hx ↦ absurd hx List.not_mem_nil
  obtain ⟨s, hbefore, hafter⟩ := hfirst.exists_splice hne hnil
  rw [List.append_nil] at hafter
  exact ⟨s, hbefore, hafter.trans hfirst.remove.symm⟩

/-- Opening another cell is a splice that puts the cell in, alone or in place of the one with its
URI. -/
theorem exists_splice_openCell {c : Cell} (hc : c.uri ≠ u) {i : Nat} {cells' : CellList}
    (h : cells.openCell c = .ok (i, cells')) :
    ∃ s : Splice u, s.before = cells ∧ s.after = cells' := by
  rcases openCell_cases h with ⟨-, rfl⟩ | ⟨-, -, rfl⟩
  · exact exists_splice_update cells hc fun _ _ ↦ rfl
  · have hnew : ∀ x ∈ [c], x.uri ≠ u := fun x hx ↦ List.mem_singleton.1 hx ▸ hc
    refine ⟨⟨cells.take i, [], [c], cells.drop i, fun x hx ↦ absurd hx List.not_mem_nil, hnew⟩,
      ?_, List.append_assoc (cells.take i) [c] (cells.drop i)⟩
    rw [Splice.before, List.append_nil, List.take_append_drop]

end OtherCell

end CellStitch.CellList
