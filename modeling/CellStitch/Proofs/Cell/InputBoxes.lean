import CellStitch.Cell.Run
import CellStitch.Proofs.Cell.Apart
import CellStitch.Proofs.Run
/-!
# Input boxes among the cells

Whether a cell is an input box is read from its URI. What the operations on cells in order do to
input boxes is said with the two parts that the cells fall into (`CellList.others` and
`CellList.boxes`): cells that are put in place of all are the others with one box behind them
(`Readable.after_replaced`), and a new cell comes in front of a box at the end
(`openCell_append_singleton`).

So input boxes stand last as long as there is one of them at most. A run of operations keeps them
last exactly if no new cell is opened behind one of several boxes
(`forall_inputsLast_run_take_iff`); that can happen, because only the last cell is looked at
(`exists_run_not_inputsLast`).
-/

namespace CellStitch

/-- Whether a cell is an input box, as far as its URI can be read. -/
def Cell.isBox (c : Cell) : Bool := c.isInput.toOption.getD false

namespace CellList

/-- The input boxes. -/
def boxes (cells : CellList) : CellList := cells.filter Cell.isBox

/-- The cells that are no input boxes. -/
def others (cells : CellList) : CellList := cells.filter (!·.isBox)

/-- The input box that stays when other cells are put in place of all: the last one of the new
cells, or else of the old ones. -/
def keptBox? (cells incoming : CellList) : Option Cell :=
  incoming.boxes.getLast?.or cells.boxes.getLast?

/-- It can be read from the URI of every cell whether it is an input box. -/
def Readable (cells : CellList) : Prop := ∀ c ∈ cells, ∃ input, c.isInput = .ok input

instance (cells : CellList) : Decidable cells.Readable :=
  decidable_of_iff (∀ c ∈ cells, c.isInput.isOk = true) <| forall₂_congr fun c _ ↦ by
    rcases c.isInput with f | input <;> simp [Except.isOk, Except.toBool]

/-- Input boxes stand last: behind one of them there are only others of them. -/
def InputsLast (cells : CellList) : Prop := cells.Pairwise fun c x ↦ c.isBox → x.isBox

instance (cells : CellList) : Decidable cells.InputsLast :=
  inferInstanceAs (Decidable (cells.Pairwise fun c x ↦ c.isBox → x.isBox))

variable {cells cells' : CellList} {c : Cell}

/-! ### The two parts -/

section Parts

/-- A cell whose URI can be read is a box exactly if it is read as one. -/
theorem isBox_eq {input : Bool} (h : c.isInput = .ok input) : c.isBox = input := by
  rw [Cell.isBox, h]
  rfl

/-- A box has a URI that can be read. -/
theorem isBox_iff : c.isBox = true ↔ c.isInput = .ok true := by
  rcases h : c.isInput with f | input
  · simp [Cell.isBox, h, Except.toOption]
  · rw [isBox_eq h, Except.ok.injEq]

/-- A box and a cell that is none have different URIs. -/
theorem uri_ne_of_isBox {x : Cell} (hx : x.isBox = false) (hc : c.isBox = true) :
    x.uri ≠ c.uri := by
  intro huri
  rw [Cell.isBox, Cell.isInput, huri] at hx
  exact Bool.false_ne_true (hx.symm.trans hc)

/-- Where all URIs can be read, boxes and other cells are told apart without failure. -/
theorem Readable.isInput_eq (h : cells.Readable) (hc : c ∈ cells) : c.isInput = .ok c.isBox := by
  obtain ⟨input, hinput⟩ := h c hc
  rw [hinput, isBox_eq hinput]

/-- The boxes of two lists of cells are those of both, in the same order. -/
theorem boxes_append (cells cells' : CellList) :
    boxes (cells ++ cells') = cells.boxes ++ cells'.boxes := List.filter_append cells cells'

/-- A cell in front is a box in front, or none. -/
theorem boxes_cons (c : Cell) (cells : CellList) :
    boxes (c :: cells) = if c.isBox then c :: cells.boxes else cells.boxes := List.filter_cons

/-- A cell in front is no box in front, or one. -/
theorem others_cons (c : Cell) (cells : CellList) :
    others (c :: cells) = if c.isBox then cells.others else c :: cells.others := by
  rw [others, List.filter_cons]
  cases c.isBox <;> rfl

/-- Among the boxes there is no other cell. -/
theorem isBox_of_mem_boxes (h : c ∈ cells.boxes) : c.isBox = true := (List.mem_filter.1 h).2

/-- Among the others there is no box. -/
theorem isBox_of_mem_others (h : c ∈ cells.others) : c.isBox = false := by
  simpa using (List.mem_filter.1 h).2

/-- What a refresh keeps is a box. -/
theorem isBox_of_keptBox? {incoming : CellList} (h : cells.keptBox? incoming = some c) :
    c.isBox = true := by
  rcases Option.or_eq_some_iff.1 h with h | ⟨-, h⟩
  all_goals exact isBox_of_mem_boxes (List.mem_of_getLast? h)

/-- There is no box exactly if no cell is one. -/
theorem boxes_eq_nil_iff : cells.boxes = [] ↔ ∀ c ∈ cells, c.isBox = false := by
  simp [boxes]

/-- Some of the cells can be read if all can. -/
theorem Readable.of_subset (h : cells.Readable) (hsub : cells' ⊆ cells) : cells'.Readable :=
  fun c hc ↦ h c (hsub hc)

/-- Cells of two lists can be read if those of each can. -/
theorem Readable.append (h : cells.Readable) (h' : cells'.Readable) :
    Readable (cells ++ cells') := by
  intro c hc
  exact (List.mem_append.1 hc).elim (h c) (h' c)

/-- Whether a cell is an input box depends on its URI alone. -/
theorem readable_congr (h : cells'.map Cell.uri = cells.map Cell.uri) :
    cells'.Readable ↔ cells.Readable := by
  have hreadable : ∀ cells : CellList, cells.Readable ↔
      ∀ uri ∈ cells.map Cell.uri, ∃ input, isInput uri = .ok input := by
    intro cells
    simp only [Readable, Cell.isInput, List.forall_mem_map]
  rw [hreadable, hreadable, h]

/-- Whether the boxes are last is a matter of the URIs. -/
theorem inputsLast_congr (h : cells'.map Cell.uri = cells.map Cell.uri) :
    cells'.InputsLast ↔ cells.InputsLast := by
  have hlast : ∀ cells : CellList, cells.InputsLast ↔ (cells.map Cell.uri).Pairwise
      fun u v ↦ isInput u = .ok true → isInput v = .ok true := by
    intro cells
    simp only [InputsLast, isBox_iff, Cell.isInput, List.pairwise_map]
  rw [hlast, hlast, h]

/-- **The cells fall into two parts** if it can be read from each URI to which its cell belongs. -/
theorem Readable.splitInputs_eq (h : cells.Readable) :
    cells.splitInputs = .ok (cells.others, cells.boxes) := by
  induction cells with
  | nil => rfl
  | cons c cells ih =>
    rw [splitInputs, h.isInput_eq List.mem_cons_self,
      ih (h.of_subset (List.subset_cons_self c cells))]
    rw [others_cons, boxes_cons]
    cases c.isBox <;> rfl

/-- Cells that are split into boxes and others can all be read. -/
theorem readable_of_splitInputs {r : CellList × CellList} (h : cells.splitInputs = .ok r) :
    cells.Readable := by
  induction cells generalizing r with
  | nil => exact fun c hc ↦ absurd hc List.not_mem_nil
  | cons c cells ih =>
    obtain ⟨input, hinput, h⟩ := bind_eq_ok_iff.1 h
    obtain ⟨rest, hrest, -⟩ := bind_eq_ok_iff.1 h
    exact List.forall_mem_cons.2 ⟨⟨input, hinput⟩, ih hrest⟩

/-- In front of other cells, one that can be read does not keep them from being split. -/
theorem map_splitInputs_cons {α : Type} {input : Bool} (hc : c.isInput = .ok input)
    (cells : CellList) (a : α) :
    (splitInputs (c :: cells)).map (fun _ ↦ a) = cells.splitInputs.map fun _ ↦ a := by
  rw [splitInputs, hc, ok_bind]
  rcases cells.splitInputs with f | r <;> rfl

/-- **Other cells in place of all** are the new ones that are no input boxes, with one box at most
behind them. -/
theorem Readable.replaceAll_eq (h : cells.Readable) (incoming : CellList) :
    cells.replaceAll incoming = incoming.splitInputs.map fun _ ↦
      incoming.others ++ (cells.keptBox? incoming).toList := by
  rw [replaceAll]
  rcases hsplit : incoming.splitInputs with f | r
  · rfl
  · have hsplit' := (readable_of_splitInputs hsplit).splitInputs_eq
    obtain rfl := Except.ok.inj (hsplit.symm.trans hsplit')
    rw [ok_bind, h.splitInputs_eq, keptBox?]
    -- the old cells are looked at only if no box is among the new ones
    rcases hboxes : incoming.boxes with - | ⟨b, bs⟩
    · rfl
    · have hlast : (b :: bs).getLast?.or cells.boxes.getLast? = (b :: bs).getLast? := by
        rw [List.getLast?_cons, Option.some_or]
      rw [hlast]
      rfl

/-- They are put in place of all exactly if they can be read. -/
theorem Readable.replaceAll_cases (h : cells.Readable) (incoming : CellList) :
    (incoming.Readable ∧
      cells.replaceAll incoming = .ok (incoming.others ++ (cells.keptBox? incoming).toList)) ∨
    ¬ incoming.Readable ∧ ∃ f, cells.replaceAll incoming = .error f := by
  rw [h.replaceAll_eq]
  rcases hsplit : incoming.splitInputs with f | r
  · refine .inr ⟨fun hread ↦ ?_, f, rfl⟩
    rw [hread.splitInputs_eq] at hsplit
    cases hsplit
  · exact .inl ⟨readable_of_splitInputs hsplit, rfl⟩

/-- A list of cells that can be read is replaced by another that can be, with the box that is kept;
else nothing changes. -/
theorem Readable.after_replaced (h : cells.Readable) (incoming : CellList) :
    cells.after (.replaced incoming) =
      if incoming.Readable then incoming.others ++ (cells.keptBox? incoming).toList else cells := by
  rw [CellList.after]
  rcases h.replaceAll_cases incoming with ⟨hread, hreplace⟩ | ⟨hread, f, hreplace⟩
  · rw [hreplace, if_pos hread]
  · rw [hreplace, if_neg hread]

end Parts

/-! ### A cell that is opened -/

section Opened

/-- A new input box goes to the end. -/
theorem openCell_of_isInput (hnew : cells.cell? c.uri = none) (hc : c.isInput = .ok true) :
    cells.openCell c = .ok (cells.length, cells ++ [c]) := by
  rw [openCell_eq_map_newPlace (indexOf?_eq_none hnew), newPlace, hc]
  show Except.ok (cells.length, cells.take cells.length ++ c :: cells.drop cells.length) = _
  rw [List.take_length, List.drop_length]

/-- So does another new cell if there is no input box at the end. -/
theorem openCell_of_endsWithInput (hnew : cells.cell? c.uri = none) (hc : c.isInput = .ok false)
    (hends : cells.endsWithInput = .ok false) :
    cells.openCell c = .ok (cells.length, cells ++ [c]) := by
  rw [openCell_eq_map_newPlace (indexOf?_eq_none hnew), newPlace, hc]
  show (cells.endsWithInput >>= _ : Except Failure Nat).map _ = _
  rw [hends]
  show Except.ok (cells.length, cells.take cells.length ++ c :: cells.drop cells.length) = _
  rw [List.take_length, List.drop_length]

/-- A list ends with a box if its last cell is one. -/
@[simp] theorem endsWithInput_append_singleton (cells : CellList) (b : Cell) :
    endsWithInput (cells ++ [b]) = b.isInput := by
  rw [endsWithInput, List.getLast?_concat]

/-- If there is one, then the new cell comes in front of it. -/
theorem openCell_append_singleton {b : Cell} (hnew : CellList.cell? (cells ++ [b]) c.uri = none)
    (hc : c.isInput = .ok false) (hb : b.isInput = .ok true) :
    openCell (cells ++ [b]) c = .ok (cells.length, cells ++ [c, b]) := by
  rw [openCell_eq_map_newPlace (indexOf?_eq_none hnew), newPlace, hc]
  show (endsWithInput (cells ++ [b]) >>= _ : Except Failure Nat).map _ = _
  rw [endsWithInput_append_singleton, hb]
  have hplace : (cells ++ [b]).length - 1 = cells.length := by simp
  show Except.ok ((cells ++ [b]).length - 1, (cells ++ [b]).take ((cells ++ [b]).length - 1) ++
    c :: (cells ++ [b]).drop ((cells ++ [b]).length - 1)) = _
  rw [hplace, List.take_left, List.drop_left]

/-- A cell that is open already is replaced where it stands. -/
theorem openCell_of_firstAt {before after : CellList} {x : Cell}
    (h : cells.FirstAt c.uri before x after) :
    cells.openCell c = .ok (before.length, cells.update c.uri fun old ↦
      { c with version := max (old.version + 1) c.version }) := by
  rw [openCell, h.indexOf?]

/-- A cell whose URI cannot be read is not opened, unless it is open already. -/
theorem openCell_of_error {f : Failure} (hnew : cells.cell? c.uri = none)
    (hc : c.isInput = .error f) : cells.openCell c = .error f := by
  rw [openCell_eq_map_newPlace (indexOf?_eq_none hnew), newPlace, hc]
  rfl

end Opened

/-! ### Input boxes at the end -/

section Last

variable {front back : CellList}

/-- Cells that are no input boxes, with input boxes behind them. -/
theorem inputsLast_append (hfront : ∀ c ∈ front, c.isBox = false)
    (hback : ∀ c ∈ back, c.isBox = true) : InputsLast (front ++ back) := by
  refine List.pairwise_append.2 ⟨?_, ?_, fun _ _ x hx _ ↦ hback x hx⟩
  · refine List.pairwise_of_forall_mem_list fun c hc _ _ hbox ↦ ?_
    rw [hfront c hc] at hbox
    cases hbox
  · exact List.pairwise_of_forall_mem_list fun _ _ x hx _ ↦ hback x hx

/-- A cell that is no input box stands right exactly if there is none in front of it. -/
theorem inputsLast_append_cons_iff (hc : c.isBox = false) :
    InputsLast (front ++ c :: back) ↔ front.boxes = [] ∧ back.InputsLast := by
  rw [InputsLast, List.pairwise_append, List.pairwise_cons, boxes_eq_nil_iff]
  constructor
  · rintro ⟨-, ⟨-, hback⟩, hcross⟩
    refine ⟨fun x hx ↦ Bool.eq_false_iff.2 fun hbox ↦ ?_, hback⟩
    have hbox' := hcross x hx c List.mem_cons_self hbox
    rw [hc] at hbox'
    cases hbox'
  · rintro ⟨hfront, hback⟩
    refine ⟨?_, ⟨fun x _ hbox ↦ ?_, hback⟩, fun x hx y _ hbox ↦ ?_⟩
    · refine List.pairwise_of_forall_mem_list fun x hx _ _ hbox ↦ ?_
      rw [hfront x hx] at hbox
      cases hbox
    · rw [hc] at hbox
      cases hbox
    · rw [hfront x hx] at hbox
      cases hbox

/-- **A new cell that is no input box** leaves input boxes last exactly if there is one of them at
most: it comes in front of the last one only. -/
theorem Readable.inputsLast_openCell_iff (h : cells.Readable) (hlast : cells.InputsLast)
    (hnew : cells.cell? c.uri = none) (hc : c.isInput = .ok false) :
    ∃ i cells', cells.openCell c = .ok (i, cells') ∧
      (cells'.InputsLast ↔ cells.boxes.length ≤ 1) := by
  have hnobox := isBox_eq hc
  rcases List.eq_nil_or_concat cells with rfl | ⟨front, b, rfl⟩
  · exact ⟨0, [c], openCell_of_endsWithInput hnew hc rfl, by simp [InputsLast, boxes]⟩
  · rw [List.concat_eq_append] at *
    have hb := h.isInput_eq (List.mem_append_right front List.mem_cons_self)
    rw [boxes_append, boxes_cons]
    rcases hbox : b.isBox with - | - <;> rw [hbox] at hb
    · -- there is none at the end, and so none at all
      have hends : endsWithInput (front ++ [b]) = .ok false := by simp [hb]
      obtain ⟨hfront, -⟩ := (inputsLast_append_cons_iff hbox).1 hlast
      refine ⟨_, _, openCell_of_endsWithInput hnew hc hends, ?_⟩
      rw [inputsLast_append_cons_iff hnobox, boxes_append, boxes_cons, hbox, hfront]
      simp [InputsLast, boxes]
    · refine ⟨_, _, openCell_append_singleton hnew hc hb, ?_⟩
      rw [inputsLast_append_cons_iff hnobox]
      simp [InputsLast, boxes]

end Last

/-! ### One operation -/

section Operation

variable {uri : String} {start stop version : Int} {new : Text}

/-- A cell that is opened leaves the cells that opening it gives. -/
theorem after_opened_of_ok {i : Nat} (h : cells.openCell c = .ok (i, cells')) :
    cells.after (.opened c) = cells' := by
  rw [after, h]

/-- Removing a cell leaves a part of the cells in the same order. -/
theorem remove_sublist (cells : CellList) (uri : String) : (cells.remove uri).Sublist cells := by
  induction cells with
  | nil => exact List.Sublist.slnil
  | cons c cells ih =>
    rw [remove]
    split
    · exact List.sublist_cons_self c cells
    · exact ih.cons_cons c

/-- An edit by offsets keeps the URIs. -/
theorem map_uri_edit {r : Cell × CellList} (h : cells.edit uri start stop new version = .ok r) :
    r.2.map Cell.uri = cells.map Cell.uri := by
  rw [edit] at h
  rcases hcell : cells.cell? uri with - | c <;> rw [hcell] at h
  · cases h
  · obtain ⟨before, after, hfirst⟩ := exists_firstAt hcell
    dsimp only at h
    split at h
    · obtain rfl := Except.ok.inj h
      exact map_uri_update fun _ _ ↦ hfirst.uri_eq
    · cases h

/-- An edit leaves every URI in its place. -/
theorem map_uri_after_edited (cells : CellList) (uri : String) (start stop : Int) (new : Text)
    (version : Int) : (cells.after (.edited uri start stop new version)).map Cell.uri =
      cells.map Cell.uri := by
  rw [after]
  rcases hedit : cells.edit uri start stop new version with f | r
  · rfl
  · exact map_uri_edit hedit

/-- Closing a cell leaves a part of the cells in the same order. -/
theorem after_closed_sublist (cells : CellList) (uri : String) :
    (cells.after (.closed uri)).Sublist cells := by
  rw [after, closeCell]
  rcases cells.cell? uri with - | c
  · exact List.Sublist.refl cells
  · exact cells.remove_sublist uri

/-- **Every cell of a run can be read**: a new one is looked at when it comes. -/
theorem Readable.after (h : cells.Readable) (step : Step) : (cells.after step).Readable := by
  cases step with
  | opened c =>
    rcases hopen : cells.openCell c with f | ⟨i, cells'⟩
    · rw [CellList.after, hopen]
      exact h
    · rw [after_opened_of_ok hopen]
      rcases openCell_cases hopen with ⟨-, rfl⟩ | ⟨-, hc, rfl⟩
      · exact (readable_congr (cells.map_uri_reopened c)).2 h
      · refine (h.of_subset (List.take_subset i cells)).append ?_
        exact List.forall_mem_cons.2 ⟨hc, h.of_subset (List.drop_subset i cells)⟩
  | closed uri => exact h.of_subset (cells.after_closed_sublist uri).subset
  | edited uri start stop new version =>
    exact (readable_congr (cells.map_uri_after_edited uri start stop new version)).2 h
  | replaced incoming =>
    rw [h.after_replaced]
    split
    · rename_i hread
      refine (hread.of_subset List.filter_sublist.subset).append fun b hb ↦ ?_
      exact ⟨true, isBox_iff.1 (isBox_of_keptBox? (Option.mem_toList.1 hb))⟩
    · exact h

/-- **A cell that is opened** leaves input boxes last, unless it is a new one that is none and finds
several of them. -/
theorem Readable.inputsLast_after_opened_iff (h : cells.Readable) (hlast : cells.InputsLast)
    (c : Cell) : (cells.after (.opened c)).InputsLast ↔
      (c.isInput = .ok false → cells.cell? c.uri = none → cells.boxes.length ≤ 1) := by
  rcases hcell : cells.cell? c.uri with - | x
  · rcases hc : c.isInput with f | - | -
    · rw [CellList.after, openCell_of_error hcell hc]
      exact iff_of_true hlast (by simp)
    · obtain ⟨i, cells', hopen, hiff⟩ := h.inputsLast_openCell_iff hlast hcell hc
      rw [after_opened_of_ok hopen]
      exact hiff.trans ⟨fun hone _ _ ↦ hone, fun hone ↦ hone rfl rfl⟩
    · rw [CellList.after, openCell_of_isInput hcell hc]
      refine iff_of_true ?_ (by simp)
      refine List.pairwise_append.2 ⟨hlast, List.pairwise_singleton _ c, fun _ _ y hy _ ↦ ?_⟩
      rw [List.mem_singleton.1 hy]
      exact isBox_eq hc
  · -- the cell is there already, and stays where it is
    obtain ⟨before, after, hfirst⟩ := exists_firstAt hcell
    refine iff_of_true ?_ (by simp)
    rw [after_opened_of_ok (openCell_of_firstAt hfirst)]
    exact (inputsLast_congr (cells.map_uri_reopened c)).2 hlast

/-- **What keeps input boxes last**, of the operations: a new cell that is none finds one of them at
most. -/
theorem Readable.inputsLast_after_iff (h : cells.Readable) (hlast : cells.InputsLast)
    (step : Step) : (cells.after step).InputsLast ↔ ∀ c, step = .opened c →
      c.isInput = .ok false → cells.cell? c.uri = none → cells.boxes.length ≤ 1 := by
  cases step with
  | opened c =>
    simp only [Step.opened.injEq, forall_eq']
    exact h.inputsLast_after_opened_iff hlast c
  | closed uri =>
    exact iff_of_true (hlast.sublist (cells.after_closed_sublist uri)) (by simp)
  | edited uri start stop new version =>
    refine iff_of_true ?_ (by simp)
    exact (inputsLast_congr (cells.map_uri_after_edited uri start stop new version)).2 hlast
  | replaced incoming =>
    refine iff_of_true ?_ (by simp)
    rw [h.after_replaced]
    split
    · exact inputsLast_append (fun _ ↦ isBox_of_mem_others)
        fun _ hb ↦ isBox_of_keptBox? (Option.mem_toList.1 hb)
    · exact hlast

end Operation

/-! ### Runs -/

/-- Where there are no cells, no URI fails to be read. -/
theorem readable_nil : Readable [] := fun _ hc ↦ absurd hc List.not_mem_nil

/-- **A run keeps input boxes last** all along exactly if no new cell other than an input box is
opened while there are two of them or more. Operations may fail on the way. -/
theorem forall_inputsLast_run_take_iff (steps : List Step) :
    (∀ k, InputsLast (run [] (steps.take k))) ↔
      ∀ k c, steps[k]? = some (.opened c) → c.isInput = .ok false →
        (run [] (steps.take k)).cell? c.uri = none → (run [] (steps.take k)).boxes.length ≤ 1 := by
  have hkeeps : ∀ (cells : CellList) (step : Step), cells.Readable → cells.InputsLast →
      ((cells.after step).InputsLast ↔ ∀ c, step = .opened c → c.isInput = .ok false →
        cells.cell? c.uri = none → cells.boxes.length ≤ 1) :=
    fun _ step h hlast ↦ h.inputsLast_after_iff hlast step
  have hiff := forall_foldl_take_iff (fun _ step h ↦ Readable.after h step) hkeeps readable_nil
    List.Pairwise.nil steps
  refine hiff.trans ⟨fun hall k c hstep ↦ hall k _ hstep c rfl, ?_⟩
  rintro hall k step hstep c rfl
  exact hall k c hstep

/-- **Input boxes need not stand last**: a new cell comes in front of the last of two input boxes,
and so behind the first. -/
theorem exists_run_not_inputsLast :
    ¬ ∀ steps : List Step, (∀ c, Step.opened c ∈ steps → ∃ input, c.isInput = .ok input) →
      InputsLast (run [] steps) := by
  intro hall
  let a : Cell := ⟨"vscode-interactive-input:/1.interactive#a", "python", 1, []⟩
  let b : Cell := ⟨"vscode-interactive-input:/1.interactive#b", "python", 1, []⟩
  let c : Cell := ⟨"vscode-notebook-cell:/1.interactive#c", "python", 1, []⟩
  have hread : ∀ x, Step.opened x ∈ [Step.opened a, .opened b, .opened c] →
      ∃ input, x.isInput = .ok input := by
    intro x hx
    have hall : Readable [a, b, c] := by decide +kernel
    exact hall x (by simpa using hx)
  exact absurd (hall [.opened a, .opened b, .opened c] hread) (by decide +kernel)

end CellList

end CellStitch
