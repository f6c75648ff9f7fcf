import CellStitch.Document.Query
import CellStitch.Proofs.Cell.Order
import CellStitch.Proofs.Span.Layout
/-!
# The layout of a document

`Document.spansFrom` is read through pieces: the spans of a cell are its pieces, placed where the
cell begins, and whether the header is among them depends on that place alone. Hence the spans of
cells that all stand behind the start of the document move as one (`Document.spansFrom_shift`).
-/

namespace CellStitch

namespace Document

open Piece (shown written)

/-! ### One cell -/

/-- The header that stands in front of a cell at an offset, if there is one. -/
def headerAt (d : Document) (uri : String) (offset : Int) : Text :=
  match isInput uri with
  | .ok false => if offset = 0 then d.headerText else []
  | _ => []

/-- The pieces of a cell at an offset, with the break that ends it. -/
def piecesAt (d : Document) (c : Cell) (offset : Int) : List Piece :=
  Piece.withHeader (d.headerAt c.uri offset) (Piece.ofText d.settings.marks (c.text ++ ['\n']))

section Cell

variable (d : Document) (c : Cell) {offset : Int}

/-- Only a cell at the start of the document can have the header in front of it. -/
theorem headerAt_of_ne_zero (uri : String) (h : offset ≠ 0) : d.headerAt uri offset = [] := by
  unfold headerAt
  split <;> simp [h]

/-- The pieces of a cell have its whole text, and one break behind it. -/
@[simp] theorem written_piecesAt (offset : Int) :
    written (d.piecesAt c offset) = c.text ++ ['\n'] := by
  rw [piecesAt, Piece.written_withHeader, Piece.written_ofText]

/-- The pieces of a cell show the header if it is due, the text with its annotations, and a break.
-/
theorem shown_piecesAt (offset : Int) : shown (d.piecesAt c offset) =
    d.headerAt c.uri offset ++ (Rendering.text d.settings.marks c.text ++ ['\n']) := by
  rw [piecesAt, Piece.shown_withHeader, Piece.shown_ofText, Rendering.text_append_break_nil]

/-- Every cell has some pieces. -/
theorem piecesAt_ne_nil (offset : Int) : d.piecesAt c offset ≠ [] :=
  Piece.ne_nil_of_written_ne_nil (by simp)

/-- Every cell shows something. -/
theorem length_shown_piecesAt_pos (offset : Int) : 0 < (shown (d.piecesAt c offset)).length := by
  rw [shown_piecesAt, List.length_append, List.length_append, List.length_singleton]
  omega

/-- Behind the start of the document the pieces of a cell do not depend on where it stands. -/
theorem piecesAt_congr {offset offset' : Int} (h : offset ≠ 0) (h' : offset' ≠ 0) :
    d.piecesAt c offset = d.piecesAt c offset' := by
  rw [piecesAt, piecesAt, headerAt_of_ne_zero d c.uri h, headerAt_of_ne_zero d c.uri h']

/-- **The spans of a cell are its pieces, placed at the offset.** The URI is only looked at where
the header might stand. -/
theorem spansOf_eq_ok_iff {spans : List Span} : d.spansOf c offset = .ok spans ↔
    (offset = 0 → ∃ b, isInput c.uri = .ok b) ∧
      spans = Span.place c.uri offset 0 (d.piecesAt c offset) := by
  unfold spansOf layOut Span.layOut piecesAt headerAt
  by_cases h : offset = 0
  · rcases hinput : isInput c.uri with e | b
    · simp [h, bind, Except.bind]
    · cases b <;> simp [h, bind, Except.bind, pure, Except.pure, eq_comm]
  · have hnone : (match isInput c.uri with
        | .ok false => if offset = 0 then d.headerText else []
        | _ => []) = ([] : Text) := headerAt_of_ne_zero d c.uri h
    rw [hnone]
    simp [h, bind, Except.bind, pure, Except.pure, eq_comm]

end Cell

/-! ### Cells that follow one another -/

/-- The number of characters that lists of spans show. -/
def shownLength (spans : List (List Span)) : Nat := (spans.flatMap Span.textOf).length

section Cells

variable (d : Document)

@[simp] theorem spansFrom_nil (offset : Int) : d.spansFrom offset [] = .ok [] := rfl

/-- The first cell is laid out where it is put, and the others from where it stops. Only at the
start its URI has to be read. -/
theorem spansFrom_cons_eq_ok_iff {c : Cell} {cells : CellList} {offset : Int}
    {spans : List (List Span)} : d.spansFrom offset (c :: cells) = .ok spans ↔
      (offset = 0 → ∃ b, isInput c.uri = .ok b) ∧
        ∃ rest, d.spansFrom (offset + (shown (d.piecesAt c offset)).length) cells = .ok rest ∧
          spans = Span.place c.uri offset 0 (d.piecesAt c offset) :: rest := by
  have hstop := Span.stopOf_place c.uri offset 0 (d.piecesAt_ne_nil c offset)
  rw [spansFrom, bind_eq_ok_iff]
  constructor
  · rintro ⟨first, hfirst, h⟩
    obtain ⟨hin, rfl⟩ := (d.spansOf_eq_ok_iff c).1 hfirst
    rw [bind_eq_ok_iff, hstop] at h
    obtain ⟨rest, hrest, h⟩ := h
    exact ⟨hin, rest, hrest, (Except.ok.inj h).symm⟩
  · rintro ⟨hin, rest, hrest, rfl⟩
    refine ⟨_, (d.spansOf_eq_ok_iff c).2 ⟨hin, rfl⟩, ?_⟩
    rw [bind_eq_ok_iff, hstop]
    exact ⟨rest, hrest, rfl⟩

/-- Every cell that is laid out has its list of spans. -/
theorem length_of_spansFrom_eq_ok {cells : CellList} {offset : Int} {spans : List (List Span)}
    (h : d.spansFrom offset cells = .ok spans) : spans.length = cells.length := by
  induction cells generalizing offset spans with
  | nil => cases h; rfl
  | cons c cells ih =>
    obtain ⟨-, rest, hrest, rfl⟩ := d.spansFrom_cons_eq_ok_iff.1 h
    rw [List.length_cons, List.length_cons, ih hrest]

@[simp] theorem shownLength_nil : shownLength [] = 0 := rfl

/-- The number of characters that spans show adds up. -/
theorem shownLength_place_cons (uri : String) (offset real : Int) (pieces : List Piece)
    (spans : List (List Span)) : shownLength (Span.place uri offset real pieces :: spans) =
      (shown pieces).length + shownLength spans := by
  rw [shownLength, List.flatMap_cons, Span.textOf_place, List.length_append, shownLength]

/-- The cells in front are laid out by themselves, and the others from where those stop. -/
theorem spansFrom_append_eq_ok_iff {cells cells' : CellList} {offset : Int}
    {spans : List (List Span)} : d.spansFrom offset (cells ++ cells') = .ok spans ↔
      ∃ front back, d.spansFrom offset cells = .ok front ∧
        d.spansFrom (offset + shownLength front) cells' = .ok back ∧ spans = front ++ back := by
  induction cells generalizing offset spans with
  | nil => simp
  | cons c cells ih =>
    simp only [List.cons_append, spansFrom_cons_eq_ok_iff, ih]
    constructor
    · rintro ⟨hin, -, ⟨front, back, hfront, hback, rfl⟩, rfl⟩
      refine ⟨_, back, ⟨hin, front, hfront, rfl⟩, ?_, rfl⟩
      rwa [shownLength_place_cons, Int.natCast_add, ← Int.add_assoc]
    · rintro ⟨-, back, ⟨hin, front, hfront, rfl⟩, hback, rfl⟩
      refine ⟨hin, _, ⟨front, back, hfront, ?_, rfl⟩, rfl⟩
      rwa [shownLength_place_cons, Int.natCast_add, ← Int.add_assoc] at hback

/-- **Cells behind the start of the document move as one**: no header can come or go with them. -/
theorem spansFrom_shift {cells : CellList} {offset : Int} (delta : Int) {spans : List (List Span)}
    (hpos : 0 < offset) (hpos' : 0 < offset + delta) (h : d.spansFrom offset cells = .ok spans) :
    d.spansFrom (offset + delta) cells = .ok (spans.map (·.map (·.shift delta))) := by
  induction cells generalizing offset spans with
  | nil => cases h; rfl
  | cons c cells ih =>
    obtain ⟨-, rest, hrest, rfl⟩ := d.spansFrom_cons_eq_ok_iff.1 h
    -- away from 0 on both sides, so that neither layout has the header
    have hpieces : d.piecesAt c offset = d.piecesAt c (offset + delta) :=
      d.piecesAt_congr c (by omega) (by omega)
    refine d.spansFrom_cons_eq_ok_iff.2
      ⟨fun h0 ↦ by omega, rest.map (·.map (·.shift delta)), ?_, ?_⟩
    · have hlen := length_shown_piecesAt_pos d c offset
      have hsum : offset + delta + ((shown (d.piecesAt c offset)).length : Int) =
          offset + (shown (d.piecesAt c offset)).length + delta := by omega
      rw [← hpieces, hsum]
      exact ih (by omega) (by omega) hrest
    · rw [List.map_cons, Span.shift_place, hpieces]

end Cells

/-! ### What stays fixed -/

/-- What stays fixed while a document lives is the same in two documents. -/
structure SameSetup (d d' : Document) : Prop where
  uri_eq : d'.uri = d.uri
  settings_eq : d'.settings = d.settings
  header_eq : d'.header = d.header

namespace SameSetup

variable {d d' d'' : Document}

/-- A document has the same setup as itself. -/
theorem refl (d : Document) : d.SameSetup d := ⟨rfl, rfl, rfl⟩

/-- Having the same setup goes both ways. -/
theorem symm (h : d.SameSetup d') : d'.SameSetup d :=
  ⟨h.uri_eq.symm, h.settings_eq.symm, h.header_eq.symm⟩

/-- Having the same setup carries over from one document to the next. -/
theorem trans (h : d.SameSetup d') (h' : d'.SameSetup d'') : d.SameSetup d'' :=
  ⟨h'.uri_eq.trans h.uri_eq, h'.settings_eq.trans h.settings_eq, h'.header_eq.trans h.header_eq⟩

/-- The layout depends on nothing else. -/
theorem spansFrom_eq (h : d.SameSetup d') (offset : Int) (cells : CellList) :
    d'.spansFrom offset cells = d.spansFrom offset cells := by
  have hof : ∀ c off, d'.spansOf c off = d.spansOf c off := by
    intro c off
    simp only [spansOf, layOut, headerText, h.settings_eq, h.header_eq]
  induction cells generalizing offset with
  | nil => rfl
  | cons c cells ih => simp only [spansFrom, hof, ih]

end SameSetup

end Document

end CellStitch
