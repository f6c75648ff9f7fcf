import CellStitch.Proofs.Document.Cells
/-!
# What a change that fails leaves behind

The edits of a change are carried out one after another, each on what the ones before it left. If
one of them does not fit, the change fails there: the edits in front of it stay, nothing is told of
them, and the edits behind it are not looked at (`of_handle_changed_eq_error`). So a change that
fails leaves everything as it was exactly if its first edit is the one that does not fit.

The edits that stay have given their cell the version of the change, and the same version is not
taken twice: what is sent again with that version does nothing.
-/

namespace CellStitch

namespace Document

/-! ### One edit -/

theorem Site.cell?_put {d : Document} {uri : String} (s : d.Site uri) {c : Cell}
    (hc : c.uri = uri) : (s.put c).cells.cell? uri = some c :=
  CellList.FirstAt.cell? ⟨rfl, hc, s.firstAt.fresh⟩

/-- An edit of a cell that is there fails exactly where it does not fit the cell. -/
theorem Settled.editCell_eq_error_iff {d : Document} (hd : d.Settled) {uri : String} {c : Cell}
    (hc : d.cells.cell? uri = some c) {version : Int} {e : Edit} {f : Failure} :
    d.editCell uri version e = .error f ↔ editedOffsets c e = .error f := by
  obtain ⟨s, rfl⟩ := hd.exists_site hc
  rcases hoff : editedOffsets s.cell e with g | ⟨a, b⟩
  · rw [s.editCell_eq_error version hoff]
    simp
  · rw [s.editCell_eq_ok hd version hoff]
    simp

/-- An edit gives its cell the version of the change, unless the cell has a higher one. -/
theorem Settled.cell?_of_editCell {d d' : Document} (hd : d.Settled) {uri : String} {c : Cell}
    (hc : d.cells.cell? uri = some c) {version : Int} {e out : Edit}
    (h : d.editCell uri version e = .ok (d', out)) :
    ∃ c', d'.cells.cell? uri = some c' ∧ c'.version = max c.version version := by
  obtain ⟨s, rfl⟩ := hd.exists_site hc
  rcases hoff : editedOffsets s.cell e with g | ⟨a, b⟩
  · rw [s.editCell_eq_error version hoff] at h
    cases h
  · rw [s.editCell_eq_ok hd version hoff] at h
    cases h
    exact ⟨s.editedCell a b e.text version, s.cell?_put s.uri_cell, rfl⟩

/-! ### Edits one after another -/

section Edits

variable {d d' : Document} {uri : String} {version : Int} {e : Edit} {edits : List Edit}

theorem editCells_cons_eq_ok_iff {outs : List Edit} :
    d.editCells uri version (e :: edits) = (d', .ok outs) ↔ ∃ d₁ out rest,
      d.editCell uri version e = .ok (d₁, out) ∧ d₁.editCells uri version edits = (d', .ok rest) ∧
        outs = out :: rest := by
  rw [editCells]
  rcases hedit : d.editCell uri version e with f | ⟨d₁, out⟩
  · simp
  · rcases hrest : d₁.editCells uri version edits with ⟨d₂, f | rest⟩ <;>
      simp [Except.map, hrest, eq_comm]

theorem editCells_cons_eq_error_iff {f : Failure} :
    d.editCells uri version (e :: edits) = (d', .error f) ↔
      (d.editCell uri version e = .error f ∧ d' = d) ∨ ∃ d₁ out,
        d.editCell uri version e = .ok (d₁, out) ∧
          d₁.editCells uri version edits = (d', .error f) := by
  rw [editCells]
  rcases hedit : d.editCell uri version e with g | ⟨d₁, out⟩
  · simp [eq_comm, and_comm]
  · rcases hrest : d₁.editCells uri version edits with ⟨d₂, g | rest⟩ <;>
      simp [Except.map, hrest]

/-- **Edits fail at the first one that fails**, with what the ones in front of it left. -/
theorem exists_of_editCells_eq_error {f : Failure}
    (h : d.editCells uri version edits = (d', .error f)) :
    ∃ done e rest out, edits = done ++ e :: rest ∧
      d.editCells uri version done = (d', .ok out) ∧ d'.editCell uri version e = .error f := by
  induction edits generalizing d with
  | nil => cases h
  | cons e edits ih =>
    rcases editCells_cons_eq_error_iff.1 h with ⟨hfail, rfl⟩ | ⟨d₁, first, hfirst, hrest⟩
    · exact ⟨[], e, edits, [], rfl, rfl, hfail⟩
    · obtain ⟨done, e', rest, out, rfl, hdone, hfail⟩ := ih hrest
      exact ⟨e :: done, e', rest, first :: out, rfl,
        editCells_cons_eq_ok_iff.2 ⟨d₁, first, out, hfirst, hdone, rfl⟩, hfail⟩

/-- Edits that are carried out give their cell the version of the change, unless there are none or
the cell has a higher one. -/
theorem Settled.cell?_of_editCells (hd : d.Settled) {c : Cell} (hc : d.cells.cell? uri = some c)
    {out : List Edit} (h : d.editCells uri version edits = (d', .ok out)) :
    ∃ c', d'.cells.cell? uri = some c' ∧
      c'.version = if edits = [] then c.version else max c.version version := by
  induction edits generalizing d c out with
  | nil =>
    cases h
    exact ⟨c, hc, rfl⟩
  | cons e edits ih =>
    obtain ⟨d₁, first, rest, hfirst, hrest, rfl⟩ := editCells_cons_eq_ok_iff.1 h
    obtain ⟨c₁, hc₁, hversion₁⟩ := hd.cell?_of_editCell hc hfirst
    obtain ⟨c', hc', hversion'⟩ := ih (hd.of_editCell hfirst).settled hc₁ hrest
    refine ⟨c', hc', ?_⟩
    rw [hversion', hversion₁, if_neg (List.cons_ne_nil e edits)]
    split
    · rfl
    · omega

end Edits

/-! ### A change -/

section Change

variable {d d' : Document} {uri : String} {version : Int} {edits : List Edit} {f : Failure}

/-- Only a change that brings a higher version to a cell that is there can fail, and it fails with
its edits. -/
theorem changeCell_eq_error_iff : d.changeCell uri version edits = (d', .error f) ↔
    ∃ c, d.cells.cell? uri = some c ∧ c.version < version ∧
      d.editCells uri version edits = (d', .error f) := by
  rw [changeCell]
  rcases hcell : d.cells.cell? uri with - | c
  · simp
  · by_cases hversion : version ≤ c.version
    · simp [hversion, Int.not_lt.2 hversion]
    · rcases hrun : d.editCells uri version edits with ⟨d₁, g | out⟩ <;>
        simp [hversion, Int.not_le.1 hversion]

/-- A change that brings no higher version does nothing. -/
theorem changeCell_eq_self {c : Cell} (hc : d.cells.cell? uri = some c)
    (hversion : version ≤ c.version) (edits : List Edit) :
    d.changeCell uri version edits = (d, .ok none) := by
  rw [changeCell, hc]
  simp [hversion]

/-- **A change that fails keeps the edits in front of the one that fails.** They are carried out one
after another, and the one that fails does not fit the cell as they leave it. They are never told:
what would lead a server to the new text is lost, and the version of the document stays.

So everything stays as it was exactly if there are no such edits. If there are some, their cell has
the version of the change, and no change with that version does anything any more. -/
theorem of_handle_changed_eq_error (h : Reachable d)
    (hfail : d.handle (.changed uri version edits) = (d', .error f)) :
    ∃ done e rest out c c', edits = done ++ e :: rest ∧
      d.editCells uri version done = (d', .ok out) ∧
      d.cells.cell? uri = some c ∧ c.version < version ∧
      d'.cells.cell? uri = some c' ∧ editedOffsets c' e = .error f ∧
      Edit.applyAll d.text out = some d'.text ∧ d'.version = d.version ∧
      (done = [] → d' = d) ∧
      (done ≠ [] → d'.cells ≠ d.cells ∧
        ∀ edits', d'.handle (.changed uri version edits') = (d', .ok none)) := by
  obtain ⟨c, hc, hversion, hrun⟩ := changeCell_eq_error_iff.1 hfail
  obtain ⟨done, e, rest, out, hsplit, hdone, hedit⟩ := exists_of_editCells_eq_error hrun
  obtain ⟨c', hc', hversion'⟩ := h.settled.cell?_of_editCells hc hdone
  have hsound : d.SoundEdits out d' := by
    have hall := (h.settled.editCells uri version done).2.2 out
    rw [hdone] at hall
    exact hall rfl
  refine ⟨done, e, rest, out, c, c', hsplit, hdone, hc, hversion, hc',
    (hsound.settled.editCell_eq_error_iff hc').1 hedit, hsound.applyAll_eq, hsound.version_eq,
    ?_, ?_⟩
  · rintro rfl
    cases hdone
    rfl
  · intro hne
    rw [if_neg hne, Int.max_eq_right (Int.le_of_lt hversion)] at hversion'
    refine ⟨?_, fun edits' ↦ changeCell_eq_self hc' (Int.le_of_eq hversion'.symm) edits'⟩
    -- the version of the cell tells the two lists apart
    intro hcells
    rw [hcells, hc] at hc'
    obtain rfl := Option.some.inj hc'
    exact Int.ne_of_lt hversion hversion'

end Change

/-- A document with a header and one cell. -/
def withOneCell : Document := headed.run [.opened ⟨"nb-cell:a", "python", 1, "x = 1".toList⟩]

/-- Edits of that cell, the second of which names a line that is not there. -/
def halfFitting : List Edit :=
  [.ranged ⟨⟨0, 0⟩, ⟨0, 1⟩⟩ "y".toList, .ranged ⟨⟨3, 0⟩, ⟨3, 0⟩⟩ []]

/-- The change fails at its second edit. The first one stays, and the change cannot be sent again
with the same version. -/
theorem of_handle_changed_eq_error_second :
    Reachable withOneCell ∧ ∃ d', withOneCell.handle (.changed "nb-cell:a" 2 halfFitting) =
        (d', .error (.lineOutOfRange 3 1)) ∧
      d'.text = "import m\ny = 1\n".toList ∧ d'.version = 1 ∧ d'.cells ≠ withOneCell.cells ∧
      ∀ edits, d'.handle (.changed "nb-cell:a" 2 edits) = (d', .ok none) := by
  have hd : Reachable withOneCell := reachable_headed.run _
  obtain ⟨d', hfail⟩ : ∃ d', withOneCell.handle (.changed "nb-cell:a" 2 halfFitting) =
      (d', .error (.lineOutOfRange 3 1)) := ⟨_, rfl⟩
  obtain ⟨done, e, rest, out, c, c', -, -, -, -, -, -, -, hversion, hnone, hsome⟩ :=
    of_handle_changed_eq_error hd hfail
  have htext : d'.text = "import m\ny = 1\n".toList := by
    have hd' : (withOneCell.handle (.changed "nb-cell:a" 2 halfFitting)).1 = d' :=
      congrArg Prod.fst hfail
    rw [← hd']
    decide +kernel
  have hdone : done ≠ [] := by
    intro hempty
    rw [hnone hempty] at htext
    exact absurd htext (by decide +kernel)
  obtain ⟨hcells, hagain⟩ := hsome hdone
  exact ⟨hd, d', hfail, htext, hversion, hcells, hagain⟩

/-- **A change that fails need not leave the document as it was**: its text and its cells are those
of the first edit, while the version is still the one that the server was told last. -/
theorem exists_handle_changed_not_kept :
    ¬ ∀ (d d' : Document) (uri : String) (version : Int) (edits : List Edit) (f : Failure),
      Reachable d → d.handle (.changed uri version edits) = (d', .error f) →
        d'.cells = d.cells ∧ d'.spans = d.spans ∧ d'.text = d.text ∧
          d'.lineStarts = d.lineStarts ∧ d'.version = d.version := by
  intro hall
  obtain ⟨d', hfail⟩ : ∃ d', withOneCell.handle (.changed "nb-cell:a" 2 halfFitting) =
      (d', .error (.lineOutOfRange 3 1)) := ⟨_, rfl⟩
  have htext : d'.text = withOneCell.text :=
    (hall _ d' _ _ _ _ (reachable_headed.run _) hfail).2.2.1
  have hd' : (withOneCell.handle (.changed "nb-cell:a" 2 halfFitting)).1 = d' :=
    congrArg Prod.fst hfail
  rw [← hd'] at htext
  exact absurd htext (by decide +kernel)

end Document

end CellStitch
