import CellStitch.Proofs.Document.Determined
/-!
# Events of different cells commute with edits

A change of a cell and an event of another cell lead to the same document in either order, and what
becomes of each of them does not depend on the order (`handle_comm`).

Both orders are compared by one relation: two settled documents that differ by a change of one cell
(`DiffersBy`). An event of another cell leads to documents that differ in the same way, and does
with both of them the same (`DiffersBy.handle`). Where it lays the cells out again, a header may
come to the changed cell or go from it, and whether the text is another one afterwards is all the
same decided by what the event puts in place of what (`shownBy_after_update_iff`).
-/

namespace CellStitch

/-- The cell that an event is about, if it is about a single one. -/
def Event.cell? : Event → Option String
  | .opened c => some c.uri
  | .changed uri _ _ => some uri
  | .closed uri => some uri
  | .refreshed _ => none

namespace Document

open CellList (Splice)

variable {u w : String} {g : Cell → Cell}

/-! ### A text that changes -/

section Shown

variable {d : Document}

/-- Whether the header stands in front is decided by the URIs. -/
theorem leadingHeader_congr {cells cells' : CellList}
    (h : cells'.map Cell.uri = cells.map Cell.uri) :
    ({ d with cells := cells' } : Document).leadingHeader =
      ({ d with cells := cells } : Document).leadingHeader := by
  rcases cells with - | ⟨c, cells⟩
  · rw [List.map_eq_nil_iff.1 h]
  · rcases cells' with - | ⟨c', cells'⟩
    · exact absurd h (List.cons_ne_nil _ _).symm
    · show d.headerAt c'.uri 0 = d.headerAt c.uri 0
      rw [(List.cons.inj h).1]

/-- Whether another stretch of cells shows another text is decided by the two stretches and by the
URIs around them. -/
theorem shownBy_append_iff {front front' old new back back' : CellList}
    (hfront : front'.map Cell.uri = front.map Cell.uri)
    (hback : back'.map Cell.uri = back.map Cell.uri) :
    d.shownBy (front' ++ new ++ back') = d.shownBy (front' ++ old ++ back') ↔
      d.shownBy (front ++ new ++ back) = d.shownBy (front ++ old ++ back) := by
  have hlead : ∀ middle : CellList,
      ({ d with cells := front' ++ middle ++ back' } : Document).leadingHeader =
        ({ d with cells := front ++ middle ++ back } : Document).leadingHeader := by
    intro middle
    apply leadingHeader_congr
    simp only [List.map_append, hfront, hback]
  rw [shownBy, shownBy, shownBy, shownBy, hlead, hlead]
  simp only [List.flatMap_append]
  rcases front with - | ⟨c, front⟩
  · -- the header is in front of the stretches, and what stands behind them is the same
    rw [List.map_eq_nil_iff.1 hfront]
    simp only [List.flatMap_nil, List.nil_append, ← List.append_assoc, List.append_cancel_right_eq]
  · -- the header is in front of the same cell
    have hhead : ∀ middle : CellList,
        ({ d with cells := c :: front ++ middle ++ back } : Document).leadingHeader =
          d.headerAt c.uri 0 := fun _ ↦ rfl
    rw [hhead, hhead]
    simp only [List.append_assoc, List.append_cancel_left_eq, List.append_cancel_right_eq]

theorem shownBy_after_update_iff (hg : ∀ c, c.uri = u → (g c).uri = u) (s : Splice u) :
    d.shownBy (s.after.update u g) = d.shownBy (s.before.update u g) ↔
      d.shownBy s.after = d.shownBy s.before := by
  rw [← s.after_update, ← s.before_update, Splice.after, Splice.before, s.old_update, s.new_update]
  exact shownBy_append_iff (s.map_uri_front_update hg) (s.map_uri_back_update hg)

end Shown

/-! ### Documents that differ by a change of one cell -/

/-- Settled documents of which the second has one cell changed. -/
structure DiffersBy (u : String) (g : Cell → Cell) (d d' : Document) : Prop where
  settled : d.Settled
  settled' : d'.Settled
  sameSetup : d.SameSetup d'
  cells_eq : d'.cells = d.cells.update u g

/-- An event of another cell of the first document has led to documents that differ in the same
way, and has become the same in both. -/
structure DiffersAfter (u : String) (g : Cell → Cell) (d : Document)
    (x x' : Document × Except Failure (Option Update)) : Prop where
  differsBy : DiffersBy u g x.1 x'.1
  cell?_eq : x.1.cells.cell? u = d.cells.cell? u
  told_eq : x'.2.map Option.isSome = x.2.map Option.isSome

namespace DiffersBy

variable {d d' : Document}

/-- Both documents stay as they are. -/
theorem unchanged (h : DiffersBy u g d d') (told : Except Failure (Option Update)) :
    DiffersAfter u g d (d, told) (d', told) :=
  ⟨h, rfl, rfl⟩

/-- **Cells that are taken over** in both documents. -/
theorem withCells (h : DiffersBy u g d d') (hg : ∀ c, c.uri = u → (g c).uri = u) {cells : CellList}
    (hcells : ∃ s : Splice u, s.before = d.cells ∧ s.after = cells) :
    DiffersAfter u g d (d.orKeep (d.withCells cells))
      (d'.orKeep (d'.withCells (cells.update u g))) := by
  have huris : (cells.update u g).map Cell.uri = cells.map Cell.uri := CellList.map_uri_update hg
  -- whether the cells can be taken over depends on their URIs only, so both fail or none does
  have hfails := map_withCells h.sameSetup huris
  rcases hr : d.withCells cells with k | r <;>
    rcases hr' : d'.withCells (cells.update u g) with k' | r' <;> rw [hr, hr'] at hfails
  · obtain rfl := Except.error.inj hfails
    exact h.unchanged (.error k')
  · cases hfails
  · cases hfails
  · have hstep := SoundStep.of_withCells hr
    have hstep' := SoundStep.of_withCells hr'
    obtain ⟨s, hbefore, rfl⟩ := hcells
    -- what is told depends on whether the text changes, and the cell in question is not touched
    have htext : r'.1.text = d'.text ↔ r.1.text = d.text := by
      rw [hstep'.settled.text_eq_shownBy, hstep.settled.text_eq_shownBy,
        h.settled'.text_eq_shownBy, h.settled.text_eq_shownBy, cells_of_withCells hr,
        cells_of_withCells hr', h.cells_eq, hstep'.sameSetup.shownBy_eq,
        hstep.sameSetup.shownBy_eq, h.sameSetup.shownBy_eq, h.sameSetup.shownBy_eq, ← hbefore]
      exact shownBy_after_update_iff hg s
    refine ⟨⟨hstep.settled, hstep'.settled,
      hstep.sameSetup.symm.trans (h.sameSetup.trans hstep'.sameSetup), ?_⟩, ?_, ?_⟩
    · show r'.1.cells = r.1.cells.update u g
      rw [cells_of_withCells hr', cells_of_withCells hr]
    · show r.1.cells.cell? u = d.cells.cell? u
      rw [cells_of_withCells hr, s.cell?_after, hbefore]
    · show Except.ok r'.2.isSome = Except.ok r.2.isSome
      rw [Except.ok.injEq, Bool.eq_iff_iff, isSome_of_withCells hr', isSome_of_withCells hr]
      exact not_congr htext

/-- **An event of another cell** does the same with both documents. -/
theorem handle (h : DiffersBy u g d d') (hg : ∀ c, c.uri = u → (g c).uri = u) {f : Event}
    (hf : f.cell? = some w) (hne : w ≠ u) : DiffersAfter u g d (d.handle f) (d'.handle f) := by
  cases f with
  | opened c =>
    obtain rfl : c.uri = w := Option.some.inj hf
    show DiffersAfter u g d (d.orKeep (d.openCell c)) (d'.orKeep (d'.openCell c))
    have haccepts : d'.accepts c = d.accepts c := by rw [accepts, accepts, h.sameSetup.settings_eq]
    rw [openCell, openCell, haccepts, h.cells_eq, CellList.openCell_update d.cells hg hne]
    rcases d.accepts c with k | taken
    · exact h.unchanged (.error k)
    · rcases taken with - | -
      · exact h.unchanged (.ok none)
      · rcases hopen : d.cells.openCell c with k | ⟨i, cells⟩
        · exact h.unchanged (.error k)
        · exact h.withCells hg (CellList.exists_splice_openCell hne hopen)
  | changed uri version edits =>
    obtain rfl : uri = w := Option.some.inj hf
    obtain ⟨hcells, htold⟩ := h.settled.handle_changed uri version edits
    obtain ⟨hcells', htold'⟩ := h.settled'.handle_changed uri version edits
    have hkeeps : ∀ c : Cell, c.uri = uri → (c.changed version edits).1.uri = uri := by simp
    rw [h.cells_eq, CellList.update_update d.cells hg hne hkeeps, ← hcells] at hcells'
    rw [h.cells_eq, CellList.cell?_update d.cells hg hne, ← htold] at htold'
    have hout := h.settled.handle (.changed uri version edits)
    have hout' := h.settled'.handle (.changed uri version edits)
    refine ⟨⟨hout.settled, hout'.settled,
      hout.sameSetup.symm.trans (h.sameSetup.trans hout'.sameSetup), hcells'⟩, ?_, htold'⟩
    rw [hcells, CellList.cell?_update d.cells hkeeps hne.symm]
  | closed uri =>
    obtain rfl : uri = w := Option.some.inj hf
    show DiffersAfter u g d (d.orKeep (d.closeCell uri)) (d'.orKeep (d'.closeCell uri))
    rw [closeCell, closeCell, CellList.closeCell, CellList.closeCell, h.cells_eq,
      CellList.cell?_update d.cells hg hne, CellList.remove_update d.cells hg hne]
    rcases hcell : d.cells.cell? uri with - | c
    · exact h.unchanged (.ok none)
    · exact h.withCells hg (CellList.exists_splice_remove hne hcell)
  | refreshed cells => exact absurd hf (by simp [Event.cell?])

end DiffersBy

/-! ### Both orders -/

section Orders

variable {d d' : Document} (hd : d.Settled)
include hd

/-- A change leads to a document that differs by what the change makes of its cell. -/
theorem Settled.differsBy_changed (u : String) (version : Int) (edits : List Edit) :
    DiffersBy u (fun c ↦ (c.changed version edits).1) d
      (d.handle (.changed u version edits)).1 :=
  have hout := hd.handle (.changed u version edits)
  ⟨hd, hout.settled, hout.sameSetup, (hd.handle_changed u version edits).1⟩

/-- What becomes of a change is decided by its cell. -/
theorem Settled.told_changed (hd' : d'.Settled) (hcell : d'.cells.cell? u = d.cells.cell? u)
    (version : Int) (edits : List Edit) :
    (d'.handle (.changed u version edits)).2.map Option.isSome =
      (d.handle (.changed u version edits)).2.map Option.isSome := by
  rw [(hd.handle_changed u version edits).2, (hd'.handle_changed u version edits).2, hcell]

/-- An event of another cell does the same before and behind a change. -/
theorem Settled.differsAfter_changed {f : Event} (hf : f.cell? = some w) (hne : w ≠ u)
    (version : Int) (edits : List Edit) :
    DiffersAfter u (fun c ↦ (c.changed version edits).1) d (d.handle f)
      ((d.handle (.changed u version edits)).1.handle f) :=
  (hd.differsBy_changed u version edits).handle (fun c hc ↦ by simp [hc]) hf hne

/-- **A change and an event of another cell** lead to the same document in either order. -/
theorem Settled.handle_handle_changed {f : Event} (hf : f.cell? = some w) (hne : w ≠ u)
    (version : Int) (edits : List Edit) :
    ((d.handle f).1.handle (.changed u version edits)).1 =
      ((d.handle (.changed u version edits)).1.handle f).1 := by
  obtain ⟨hdiffers, hcell, htold⟩ := hd.differsAfter_changed hf hne version edits
  have hdiffers' := hdiffers.settled.differsBy_changed u version edits
  refine hdiffers.settled'.eq_of_cells_eq hdiffers'.settled'
    (hdiffers.sameSetup.symm.trans hdiffers'.sameSetup)
    (hdiffers'.cells_eq.trans hdiffers.cells_eq.symm) ?_
  -- each of them is counted in the one order if it is in the other
  rw [hdiffers.settled.version_handle, hd.version_handle,
    (hd.handle (.changed u version edits)).settled.version_handle, hd.version_handle, htold,
    hd.told_changed hdiffers.settled hcell]
  omega

end Orders

/-- **A change can be put off** until after any events of other cells. -/
theorem Settled.run_handle_changed {d : Document} (hd : d.Settled) {events : List Event}
    (hevents : ∀ f ∈ events, ∃ w, f.cell? = some w ∧ w ≠ u) (version : Int) (edits : List Edit) :
    ((d.run events).handle (.changed u version edits)).1 =
      (d.handle (.changed u version edits)).1.run events := by
  induction events generalizing d with
  | nil => rfl
  | cons f events ih =>
    obtain ⟨w, hf, hne⟩ := hevents f List.mem_cons_self
    show (((d.handle f).1.run events).handle (.changed u version edits)).1 =
      ((d.handle (.changed u version edits)).1.handle f).1.run events
    rw [ih (hd.handle f).settled fun f' hf' ↦ hevents f' (List.mem_cons_of_mem f hf'),
      hd.handle_handle_changed hf hne]

/-- **Events of different cells commute with edits.** In a reachable document a change of a cell and
an event that opens, closes or changes another cell lead to the same document in either order, the
version included. Each of the two fails in the one order exactly if it fails in the other, with the
same cause, and is told to the server exactly if it is told in the other. -/
theorem handle_comm {d : Document} (h : Reachable d) {f : Event} (hf : f.cell? = some w)
    (hne : w ≠ u) (version : Int) (edits : List Edit) :
    ((d.handle f).1.handle (.changed u version edits)).1 =
        ((d.handle (.changed u version edits)).1.handle f).1 ∧
      ((d.handle f).1.handle (.changed u version edits)).2.map Option.isSome =
        (d.handle (.changed u version edits)).2.map Option.isSome ∧
      ((d.handle (.changed u version edits)).1.handle f).2.map Option.isSome =
        (d.handle f).2.map Option.isSome := by
  obtain ⟨hdiffers, hcell, htold⟩ := h.settled.differsAfter_changed hf hne version edits
  exact ⟨h.settled.handle_handle_changed hf hne version edits,
    h.settled.told_changed hdiffers.settled hcell version edits, htold⟩

/-- The first cell is closed, so that the header comes to the second one, whose edits fail at the
second of them. -/
theorem handle_comm_failing :
    let d := headed.run
      [.opened ⟨"nb-cell:a", "python", 1, "x = 1".toList⟩,
        .opened ⟨"nb-cell:b", "python", 1, "?run\r\ny".toList⟩]
    let edited := Event.changed "nb-cell:b" 2
      [.ranged ⟨⟨0, 0⟩, ⟨0, 1⟩⟩ "%".toList, .ranged ⟨⟨3, 0⟩, ⟨3, 0⟩⟩ []]
    let closed := Event.closed "nb-cell:a"
    Reachable d ∧ closed.cell? = some "nb-cell:a" ∧ "nb-cell:a" ≠ "nb-cell:b" ∧
      ((d.handle closed).1.handle edited).1 = ((d.handle edited).1.handle closed).1 ∧
      ((d.handle edited).1.handle closed).1.text =
        "import m\n%run # type: ignore\r\ny\n".toList ∧
      (d.handle edited).2.map Option.isSome = .error (.lineOutOfRange 3 2) ∧
      ((d.handle closed).1.handle edited).2.map Option.isSome = .error (.lineOutOfRange 3 2) ∧
      (d.handle closed).2.map Option.isSome = .ok true ∧
      ((d.handle edited).1.handle closed).2.map Option.isSome = .ok true := by
  intro d edited closed
  have hd : Reachable d := reachable_headed.run _
  have hne : "nb-cell:a" ≠ "nb-cell:b" := by decide
  obtain ⟨hcomm, hedited, hclosed⟩ := handle_comm hd (f := closed) rfl hne 2
    [.ranged ⟨⟨0, 0⟩, ⟨0, 1⟩⟩ "%".toList, .ranged ⟨⟨3, 0⟩, ⟨3, 0⟩⟩ []]
  have hfails : (d.handle edited).2.map Option.isSome = .error (.lineOutOfRange 3 2) := by
    decide +kernel
  have htold : (d.handle closed).2.map Option.isSome = .ok true := by decide +kernel
  exact ⟨hd, rfl, hne, hcomm, by decide +kernel, hfails, hedited.trans hfails, htold,
    hclosed.trans htold⟩

end Document

end CellStitch
