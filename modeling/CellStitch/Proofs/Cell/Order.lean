import CellStitch.Cell.Order
/-!
# The first cell with a URI

Looking a cell up, changing it and taking it away all mean the first cell with its URI. Where that
cell stands is said once (`CellList.FirstAt`), and each operation is then an equation on the cells
before it, the cell, and the cells behind it.
-/

namespace CellStitch

/-! ### Steps that may fail -/

section Steps

variable {ε α β γ : Type}

@[simp] theorem ok_bind (a : α) (f : α → Except ε β) : Except.ok a >>= f = f a := rfl

@[simp] theorem error_bind (e : ε) (f : α → Except ε β) :
    Except.error e >>= f = .error e := rfl

/-- What a step and the steps after it give, if they give something. -/
theorem bind_eq_ok_iff {x : Except ε α} {f : α → Except ε β} {b : β} :
    x >>= f = .ok b ↔ ∃ a, x = .ok a ∧ f a = .ok b := by
  cases x <;> simp

/-- What is made of a result in two steps. -/
theorem except_map_map (x : Except ε α) (f : α → β) (g : β → γ) :
    (x.map f).map g = x.map fun a ↦ g (f a) := by
  cases x <;> rfl

section MapError

variable {δ : Type} {f : ε → δ}

@[simp] theorem mapError_ok (a : α) : (Except.ok a).mapError f = .ok a := rfl

@[simp] theorem mapError_error (e : ε) : (Except.error e : Except ε α).mapError f = .error (f e) :=
  rfl

/-- To word a failure differently does not change what a step gives. -/
theorem mapError_eq_ok_iff {x : Except ε α} {a : α} : x.mapError f = .ok a ↔ x = .ok a := by
  cases x <;> simp

/-- A failure that was renamed comes from one with the old name. -/
theorem mapError_eq_error_iff {x : Except ε α} {e : δ} :
    x.mapError f = .error e ↔ ∃ e', x = .error e' ∧ f e' = e := by
  cases x <;> simp

end MapError

end Steps

/-! ### The first cell -/

namespace CellList

/-- The first cell with a URI is `c`; it stands behind `before` and in front of `after`. -/
structure FirstAt (cells : CellList) (uri : String) (before : CellList) (c : Cell)
    (after : CellList) : Prop where
  cells_eq : cells = before ++ c :: after
  uri_eq : c.uri = uri
  fresh : ∀ x ∈ before, x.uri ≠ uri

namespace FirstAt

variable {cells before after : CellList} {uri : String} {c : Cell}

theorem indexOf? (h : cells.FirstAt uri before c after) :
    cells.indexOf? uri = some before.length := by
  obtain ⟨rfl, rfl, hfresh⟩ := h
  have hnone : before.findIdx? (·.uri == c.uri) = none := by
    rw [List.findIdx?_eq_none_iff]
    intro x hx
    exact beq_eq_false_iff_ne.2 (hfresh x hx)
  simp [CellList.indexOf?, List.findIdx?_append, hnone, List.findIdx?_cons]

theorem cell? (h : cells.FirstAt uri before c after) : cells.cell? uri = some c := by
  obtain ⟨rfl, rfl, hfresh⟩ := h
  have hnone : before.find? (·.uri == c.uri) = none := by
    rw [List.find?_eq_none]
    intro x hx
    simpa using hfresh x hx
  simp [CellList.cell?, hnone]

/-- There is only one first cell with a URI. -/
theorem unique {before' after' : CellList} {c' : Cell} (h : cells.FirstAt uri before c after)
    (h' : cells.FirstAt uri before' c' after') : before = before' ∧ c = c' ∧ after = after' := by
  have hlength : before.length = before'.length :=
    Option.some.inj (h.indexOf?.symm.trans h'.indexOf?)
  obtain ⟨hbefore, hrest⟩ := List.append_inj (h.cells_eq.symm.trans h'.cells_eq) hlength
  exact ⟨hbefore, List.cons.inj hrest⟩

theorem update (h : cells.FirstAt uri before c after) (f : Cell → Cell) :
    cells.update uri f = before ++ f c :: after := by
  obtain ⟨rfl, rfl, hfresh⟩ := h
  induction before with
  | nil => simp [CellList.update]
  | cons x before ih =>
    rw [List.cons_append, CellList.update, if_neg (hfresh x List.mem_cons_self),
      ih fun y hy ↦ hfresh y (List.mem_cons_of_mem x hy), List.cons_append]

end FirstAt

/-- **A URI that is looked up with success names a first cell.** -/
theorem exists_firstAt {cells : CellList} {uri : String} {c : Cell} (h : cells.cell? uri = some c) :
    ∃ before after, cells.FirstAt uri before c after := by
  obtain ⟨huri, before, after, hcells, hfresh⟩ := List.find?_eq_some_iff_append.1 h
  exact ⟨before, after, hcells, beq_iff_eq.1 huri, fun x hx ↦ by simpa using hfresh x hx⟩

/-- No cell is found by a URI exactly if no cell has it. -/
theorem cell?_eq_none_iff {cells : CellList} {uri : String} :
    cells.cell? uri = none ↔ ∀ c ∈ cells, c.uri ≠ uri := by
  simp [cell?]

/-- Without a cell with the URI there is no place for it either. -/
theorem indexOf?_eq_none {cells : CellList} {uri : String} (h : cells.cell? uri = none) :
    cells.indexOf? uri = none := by
  rw [indexOf?, List.findIdx?_eq_none_iff]
  intro c hc
  exact beq_eq_false_iff_ne.2 (cell?_eq_none_iff.1 h c hc)

/-- A URI with a place names the first cell there. -/
theorem exists_firstAt_of_indexOf? {cells : CellList} {uri : String} {i : Nat}
    (h : cells.indexOf? uri = some i) :
    ∃ before c after, cells.FirstAt uri before c after ∧ before.length = i ∧
      cells[i]? = some c := by
  rcases hc : cells.cell? uri with - | c
  · rw [indexOf?_eq_none hc] at h
    cases h
  · obtain ⟨before, after, hfirst⟩ := exists_firstAt hc
    obtain rfl := Option.some.inj (h.symm.trans hfirst.indexOf?)
    exact ⟨before, c, after, hfirst, rfl, by simp [hfirst.cells_eq]⟩

end CellList

end CellStitch
