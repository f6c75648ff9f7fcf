import CellStitch.Proofs.Cell.InputBoxes
/-!
# Cells opened in turn

To put cells in place of all is the same as to open them in turn where there were none, if their
URIs are distinct and one of them at most is an input box (`openAll_eq_replaceAll`). If none of them
is, the last input box of the old cells has to be opened behind them.

The two ways are different ones: an opened cell is put in front of an input box at the end, one cell
after another (`openAll_append`), while a refresh splits the cells and puts the box behind the
others. They fail alike, at the first cell whose URI cannot be read.
-/

namespace CellStitch.CellList

/-- The cells after some are opened in turn, up to the first that cannot be. -/
def openAll (cells : CellList) : List Cell → Except Failure CellList
  | [] => .ok cells
  | c :: new => do
    let (_, cells) ← cells.openCell c
    openAll cells new

/-- The new cells, and behind them the last input box of the old ones if none of the new ones is an
input box. -/
def withOldBox (cells incoming : CellList) : CellList :=
  incoming ++ if incoming.boxes = [] then cells.boxes.getLast?.toList else []

variable {cells front box new : CellList} {c : Cell}

theorem openAll_cons_of_ok {i : Nat} {cells' : CellList} (h : cells.openCell c = .ok (i, cells')) :
    cells.openAll (c :: new) = cells'.openAll new := by
  rw [openAll, h]
  rfl

theorem openAll_append (cells : CellList) (new later : List Cell) :
    cells.openAll (new ++ later) = cells.openAll new >>= fun cells ↦ cells.openAll later := by
  induction new generalizing cells with
  | nil => rfl
  | cons c new ih =>
    rw [List.cons_append, openAll, openAll]
    rcases cells.openCell c with f | r
    · rfl
    · exact ih r.2

/-- A cell with a new URI goes to the end of the cells that are no input boxes. -/
theorem openCell_append (hbox : ∀ b ∈ box, b.isBox = true) (hone : box.length ≤ 1)
    (hfront : ∀ x ∈ front, x.isInput = .ok false)
    (hnew : CellList.cell? (front ++ box) c.uri = none) (hc : c.isInput = .ok false) :
    ∃ i, openCell (front ++ box) c = .ok (i, front ++ [c] ++ box) := by
  rcases box with - | ⟨b, box⟩
  · rw [List.append_nil] at hnew ⊢
    have hends : endsWithInput front = .ok false := by
      rw [endsWithInput]
      rcases hlast : front.getLast? with - | x
      · rfl
      · exact hfront x (List.mem_of_getLast? hlast)
    exact ⟨_, by rw [openCell_of_endsWithInput hnew hc hends, List.append_nil]⟩
  · obtain rfl : box = [] := List.length_eq_zero_iff.1 (by simpa using hone)
    have hb : b.isInput = .ok true := isBox_iff.1 (hbox b List.mem_cons_self)
    exact ⟨_, by rw [openCell_append_singleton hnew hc hb, List.append_assoc]; rfl⟩

/-- **New cells that are opened in turn** go to the cells of their kind, in their order. -/
theorem openAll_eq (hfront : ∀ x ∈ front, x.isInput = .ok false) (hbox : ∀ b ∈ box, b.isBox = true)
    (hone : (box ++ new.boxes).length ≤ 1) (hnodup : ((front ++ box ++ new).map Cell.uri).Nodup) :
    openAll (front ++ box) new = new.splitInputs.map fun _ ↦
      front ++ new.others ++ (box ++ new.boxes) := by
  -- by the new cells: one that is no box goes behind the others, and the first box behind them
  induction new generalizing front box with
  | nil => simp [openAll, splitInputs, others, boxes, Except.map]
  | cons c new ih =>
    have hnew : CellList.cell? (front ++ box) c.uri = none := by
      rw [List.map_append, List.nodup_append] at hnodup
      refine cell?_eq_none_iff.2 fun x hx ↦ ?_
      exact hnodup.2.2 x.uri (List.mem_map_of_mem hx) c.uri (List.mem_map_of_mem List.mem_cons_self)
    rcases hc : c.isInput with f | - | -
    · rw [openAll, openCell_of_error hnew hc, splitInputs, hc]
      rfl
    · rw [boxes_cons, isBox_eq hc, if_neg Bool.false_ne_true] at hone ⊢
      rw [others_cons, isBox_eq hc, if_neg Bool.false_ne_true, map_splitInputs_cons hc]
      have hone' : box.length ≤ 1 := by
        rw [List.length_append] at hone
        omega
      obtain ⟨i, hopen⟩ := openCell_append hbox hone' hfront hnew hc
      have hfront' : ∀ x ∈ front ++ [c], x.isInput = .ok false := by
        simpa [or_imp, forall_and, hc] using hfront
      have hnodup' : ((front ++ [c] ++ box ++ new).map Cell.uri).Nodup := by
        refine (List.Perm.nodup_iff (List.Perm.map Cell.uri ?_)).1 hnodup
        have hmiddle : (box ++ c :: new).Perm (c :: (box ++ new)) := List.perm_middle
        rw [List.append_assoc, List.append_assoc, List.append_assoc]
        exact hmiddle.append_left front
      rw [openAll_cons_of_ok hopen, ih hfront' hbox hone hnodup', List.append_assoc front,
        List.singleton_append]
    · obtain rfl : box = [] := by
        rw [boxes_cons, isBox_eq hc, if_pos rfl, List.length_append, List.length_cons] at hone
        exact List.length_eq_zero_iff.1 (by omega)
      rw [List.append_nil] at hnodup hnew ⊢
      rw [boxes_cons, isBox_eq hc, if_pos rfl, List.nil_append] at hone ⊢
      rw [others_cons, isBox_eq hc, if_pos rfl, map_splitInputs_cons hc,
        openAll_cons_of_ok (openCell_of_isInput hnew hc)]
      have hbox' : ∀ b ∈ [c], b.isBox = true := by simp [isBox_eq hc]
      rw [ih hfront hbox' hone]
      · rfl
      · rwa [List.append_assoc, List.singleton_append]

/-- **To put cells in place of all is to open them in turn** where there were none, if their URIs
are distinct and one of them at most is an input box. The last input box of the old cells is opened
behind them if none of them is one. -/
theorem openAll_eq_replaceAll {incoming : CellList} (h : cells.Readable)
    (hnodup : (incoming.map Cell.uri).Nodup) (hone : incoming.boxes.length ≤ 1) :
    openAll [] (cells.withOldBox incoming) = cells.replaceAll incoming := by
  have hfresh : openAll [] incoming =
      incoming.splitInputs.map fun _ ↦ incoming.others ++ incoming.boxes := by
    have hnone : ∀ x ∈ ([] : CellList), x.isInput = .ok false := by simp
    have hnobox : ∀ b ∈ ([] : CellList), b.isBox = true := by simp
    exact openAll_eq hnone hnobox hone hnodup
  rw [withOldBox, openAll_append, hfresh, h.replaceAll_eq]
  rcases hsplit : incoming.splitInputs with f | r
  · rfl
  · show openAll (incoming.others ++ incoming.boxes) _ = Except.ok _
    rw [keptBox?]
    rcases hboxes : incoming.boxes with - | ⟨b, boxes⟩
    · -- the input box that is kept is none of the new cells
      rw [if_pos rfl, List.append_nil, List.getLast?_nil, Option.none_or]
      rcases hkept : cells.boxes.getLast? with - | b
      · rw [Option.toList_none, List.append_nil]
        rfl
      · have hb : b.isBox = true := isBox_of_mem_boxes (List.mem_of_getLast? hkept)
        have hnew : incoming.others.cell? b.uri = none :=
          cell?_eq_none_iff.2 fun x hx ↦ uri_ne_of_isBox (isBox_of_mem_others hx) hb
        rw [Option.toList_some, openAll_cons_of_ok (openCell_of_isInput hnew (isBox_iff.1 hb))]
        rfl
    · obtain rfl : boxes = [] := by
        rw [hboxes] at hone
        exact List.length_eq_zero_iff.1 (Nat.le_zero.1 (Nat.le_of_succ_le_succ hone))
      rfl

end CellStitch.CellList
