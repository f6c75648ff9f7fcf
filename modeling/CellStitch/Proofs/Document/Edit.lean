import CellStitch.Document.Update
import CellStitch.Proofs.Cell.Positions
import CellStitch.Proofs.Document.Settled
import CellStitch.Proofs.Edit
import CellStitch.Proofs.Span.OffsetMap
import CellStitch.Receiver
/-!
# Editing a cell of a settled document

Editing the cell at a site puts the edited cell there, and nothing else (`Site.editCell_eq_ok`); it
fails exactly where the edit does not fit the cell (`Site.editCell_eq_error`). The edit that is
passed on, in either of its two forms, leads from the old text of the document to the new one
(`Site.applyTo_passedOn`).
-/

namespace CellStitch

namespace Document

open Cell (offsetAt_eq_ok_iff)
open Piece (shown written toShown)

/-! ### What an edit replaces -/

/-- What an edit replaces is a stretch of the cell. -/
theorem le_of_editedOffsets {c : Cell} {e : Edit} {a b : Nat}
    (h : editedOffsets c e = .ok (a, b)) : a ≤ b ∧ b ≤ c.text.length := by
  cases e with
  | whole t =>
    cases h
    exact ⟨Nat.zero_le _, Nat.le_refl _⟩
  | ranged r t =>
    obtain ⟨start, -, h⟩ := bind_eq_ok_iff.1 h
    obtain ⟨stop, hstop, h⟩ := bind_eq_ok_iff.1 h
    have hle := (Text.positionAt_of_offsetAt? (offsetAt_eq_ok_iff.1 hstop)).1
    split at h
    · cases h
      exact ⟨‹_›, hle⟩
    · cases h

namespace Site

variable {d : Document} {uri : String} (s : d.Site uri)

/-- The cell with a stretch of its text replaced. Its version never falls. -/
def editedCell (a b : Nat) (new : Text) (version : Int) : Cell :=
  { s.cell with text := s.cell.text.splice a b new, version := max s.cell.version version }

/-- The edit of the document that goes with an edit of the cell: the same edit if no annotation
comes or goes with it, and else all of the cell. -/
def passedOn (a b : Nat) (new : Text) (c : Cell) : Edit :=
  if (shown s.pieces).splice (toShown s.pieces a) (toShown s.pieces b) new =
      shown (d.piecesAt c s.offset) then
    .ranged ⟨d.positionAt (s.offset + toShown s.pieces a : Nat),
      d.positionAt (s.offset + toShown s.pieces b : Nat)⟩ new
  else
    .ranged ⟨d.positionAt s.offset, d.positionAt (s.offset + (shown s.pieces).length : Nat)⟩
      (shown (d.piecesAt c s.offset))

/-- An offset of the cell is shown where its pieces show it, moved to where the cell begins. -/
theorem toSynthetic_spans (r : Nat) :
    Span.toSynthetic s.spans r = .ok ((s.offset + toShown s.pieces r : Nat) : Int) := by
  have h := Span.toSynthetic_place s.cell.uri s.pieces_ne_nil s.offset 0 r
  rw [Int.zero_add] at h
  rw [spans, h, Int.natCast_add]

theorem edit_eq_ok {a b : Nat} (hab : a ≤ b) (hb : b ≤ s.cell.text.length) (new : Text)
    (version : Int) : d.cells.edit uri a b new version =
      .ok (s.editedCell a b new version, s.before ++ s.editedCell a b new version :: s.after) := by
  rw [CellList.edit, s.firstAt.cell?]
  simp only
  rw [if_pos ⟨by omega, by omega, by omega⟩, s.firstAt.update]
  rfl

/-- An edit without offsets in the cell fails before anything is changed. -/
theorem editCell_eq_error {e : Edit} {f : Failure} (version : Int)
    (h : editedOffsets s.cell e = .error f) : d.editCell uri version e = .error f := by
  rw [editCell, s.firstAt.indexOf?]
  simp only [s.lookUp_eq, ok_bind, h, error_bind]

/-- The part of the document's text that belongs to the cell. -/
theorem take_drop_text (hd : d.Settled) :
    (d.text.drop s.offset).take (shown s.pieces).length = shown s.pieces := by
  rw [s.text_eq hd, List.append_assoc, ← s.length_front, List.drop_left, List.take_left]

/-- Replacing the cell's part of the text. -/
theorem splice_text (hd : d.Settled) (new : Text) :
    d.text.splice s.offset (s.offset + (shown s.pieces).length) new = s.front ++ new ++ s.back := by
  rw [s.text_eq hd, ← s.length_front, Text.splice_append_append_self]

theorem take_spans : d.spans.take s.before.length = s.spansBefore := by
  rw [s.spans_eq', ← s.length_spansBefore, List.take_left]

theorem drop_spans : d.spans.drop (s.before.length + 1) = s.spansAfter := by
  rw [s.spans_eq', ← s.length_spansBefore, ← List.drop_drop, List.drop_left]
  rfl

/-- **An edit of a cell puts the edited cell in its place.** -/
theorem editCell_eq_ok (hd : d.Settled) {e : Edit} {a b : Nat} (version : Int)
    (h : editedOffsets s.cell e = .ok (a, b)) :
    d.editCell uri version e =
      .ok (s.put (s.editedCell a b e.text version),
        s.passedOn a b e.text (s.editedCell a b e.text version)) := by
  obtain ⟨hab, hb⟩ := le_of_editedOffsets h
  have hnew : d.spansOf (s.editedCell a b e.text version) s.offset =
      .ok (Span.place s.cell.uri s.offset 0
        (d.piecesAt (s.editedCell a b e.text version) s.offset)) :=
    (d.spansOf_eq_ok_iff _).2 ⟨s.isInput_eq, rfl⟩
  -- all offsets are those of the text, so the document only counts in natural numbers
  have hstop : (s.offset : Int) + (shown s.pieces).length =
      (s.offset + (shown s.pieces).length : Nat) := (Int.natCast_add _ _).symm
  have hsub : ∀ n : Nat, ((s.offset + n : Nat) : Int) - s.offset = n := fun n ↦ by omega
  rw [editCell, s.firstAt.indexOf?]
  simp only [s.lookUp_eq, ok_bind, h, s.toSynthetic_spans, s.edit_eq_ok hab hb,
    s.startOf_spans, s.stopOf_spans, hnew, Span.textOf_place, hstop, hsub, Int.toNat_natCast,
    s.take_drop_text hd, s.splice_text hd, s.take_spans, s.drop_spans]
  rfl

/-- **The edit that is passed on leads from the old text to the new one**, in both of its forms. -/
theorem applyTo_passedOn (hd : d.Settled) {a b : Nat} (hab : a ≤ b) (new : Text) (c : Cell) :
    (s.passedOn a b new c).applyTo d.text = some (s.put c).text := by
  have htext := s.text_eq hd
  have hle : s.offset + (shown s.pieces).length ≤ d.text.length := by
    rw [htext, List.length_append, List.length_append, s.length_front]
    omega
  have hb := Piece.toShown_le s.pieces b
  have hmono := Piece.toShown_mono s.pieces hab
  unfold passedOn
  split
  · -- the narrow edit replaces a stretch inside the cell's part
    rename_i hnarrow
    rw [hd.positionAt_eq (by omega), hd.positionAt_eq (by omega),
      Edit.applyTo_ranged_positionAt (by omega) (by omega), htext, ← s.length_front,
      Text.splice_append_append _ _ _ _ hmono hb, hnarrow]
    rfl
  · rw [hd.positionAt_eq (by omega), hd.positionAt_eq hle,
      Edit.applyTo_ranged_positionAt (Nat.le_add_right _ _) hle, s.splice_text hd]
    rfl

end Site

/-! ### Edits one after another -/

/-- An edit of a cell that is not there fails. -/
theorem editCell_of_cell?_eq_none {d : Document} {uri : String} (h : d.cells.cell? uri = none)
    (version : Int) (e : Edit) : d.editCell uri version e = .error (.cellNotOpen uri) := by
  rw [editCell, CellList.indexOf?_eq_none h]

/-- Edits that lead from a document to a settled one of the same version. -/
structure SoundEdits (d : Document) (edits : List Edit) (d' : Document) : Prop where
  settled : d'.Settled
  sameSetup : d.SameSetup d'
  version_eq : d'.version = d.version
  applyAll_eq : Edit.applyAll d.text edits = some d'.text

theorem SoundEdits.nil {d : Document} (hd : d.Settled) : d.SoundEdits [] d :=
  ⟨hd, .refl d, rfl, rfl⟩

/-- Edits one after another are sound if each of them is. -/
theorem SoundEdits.cons {d d₁ d' : Document} {e : Edit} {edits : List Edit}
    (h : d.SoundEdits [e] d₁) (h' : d₁.SoundEdits edits d') : d.SoundEdits (e :: edits) d' := by
  refine ⟨h'.settled, h.sameSetup.trans h'.sameSetup, h'.version_eq.trans h.version_eq, ?_⟩
  have hfirst : (e.applyTo d.text).bind some = some d₁.text := h.applyAll_eq
  rw [Option.bind_fun_some] at hfirst
  rw [Edit.applyAll, hfirst, Option.bind_some, h'.applyAll_eq]

/-- **One edit** leaves a document settled, and is passed on as an edit that leads to its text. -/
theorem Settled.of_editCell {d d' : Document} (hd : d.Settled) {uri : String} {version : Int}
    {e out : Edit} (h : d.editCell uri version e = .ok (d', out)) : d.SoundEdits [out] d' := by
  rcases hcell : d.cells.cell? uri with - | c
  · rw [editCell_of_cell?_eq_none hcell] at h
    cases h
  · obtain ⟨s, -⟩ := hd.exists_site hcell
    rcases hoff : editedOffsets s.cell e with f | ⟨a, b⟩
    · rw [s.editCell_eq_error version hoff] at h
      cases h
    · rw [s.editCell_eq_ok hd version hoff] at h
      cases h
      refine ⟨s.settled_put s.uri_cell, s.sameSetup_put _, rfl, ?_⟩
      rw [Edit.applyAll, s.applyTo_passedOn hd (le_of_editedOffsets hoff).1]
      rfl

/-- **Edits one after another** leave a document settled, also if one of them fails; if none does,
what is passed on leads to its text. -/
theorem Settled.editCells {d : Document} (hd : d.Settled) (uri : String) (version : Int)
    (edits : List Edit) :
    (d.editCells uri version edits).1.Settled ∧ d.SameSetup (d.editCells uri version edits).1 ∧
      ∀ out, (d.editCells uri version edits).2 = .ok out →
        d.SoundEdits out (d.editCells uri version edits).1 := by
  -- by the edits: the first one leaves a settled document, and the others are applied to that
  induction edits generalizing d with
  | nil =>
    refine ⟨hd, .refl d, ?_⟩
    rintro out hout
    cases hout
    exact .nil hd
  | cons e edits ih =>
    rcases hedit : d.editCell uri version e with f | ⟨d₁, first⟩
    · have hrun : d.editCells uri version (e :: edits) = (d, .error f) := by
        rw [Document.editCells, hedit]
      rw [hrun]
      exact ⟨hd, .refl d, fun out hout ↦ by cases hout⟩
    · have hfirst := hd.of_editCell hedit
      obtain ⟨hrest, hsame, hout'⟩ := ih hfirst.settled
      have hrun : d.editCells uri version (e :: edits) =
          ((d₁.editCells uri version edits).1,
            (d₁.editCells uri version edits).2.map (first :: ·)) := by
        rw [Document.editCells, hedit]
      rw [hrun]
      refine ⟨hrest, hfirst.sameSetup.trans hsame, ?_⟩
      intro out hout
      rcases hr : (d₁.editCells uri version edits).2 with f | rest
      · rw [hr] at hout
        cases hout
      · rw [hr] at hout
        cases hout
        exact hfirst.cons (hout' rest hr)

end Document

end CellStitch
