import CellStitch.Proofs.Span.Columns
import CellStitch.Proofs.Span.Copies
import Mathlib
/-!
# The two offset maps of a layout are adjoint

An offset of the cell lands at or before an offset of the document exactly if the way back from
there leads to it or behind it (`Span.layOut_adjoint`). Both maps have a result for every integer
and keep the order.

On pieces this is known of every offset that has a character in front of it
(`Piece.toShown_le_iff_of_pos`): it lands behind the copy of that character, and the way back counts
copies. Nothing is said there about how pieces take turns. The start of the cell has no character in
front, and there it matters that a header is the only injected text that may come first.
-/

namespace CellStitch

namespace Piece

variable {pieces : List Piece}

/-! ### Pieces -/

theorem toWritten_le (pieces : List Piece) (o : Nat) :
    toWritten pieces o ≤ (written pieces).length := by
  induction pieces generalizing o with
  | nil => exact Nat.le_refl 0
  | cons p pieces ih =>
    cases p with
    | verbatim t =>
      have hrest := ih (o - t.length)
      rw [written_verbatim, List.length_append]
      simp only [toWritten]
      split <;> omega
    | injected t =>
      rw [written_injected, toWritten]
      split
      · exact Nat.zero_le _
      · exact ih _

/-- More copies stand before a later offset. -/
theorem toWritten_mono (pieces : List Piece) {o o' : Nat} (h : o ≤ o') :
    toWritten pieces o ≤ toWritten pieces o' := by
  by_contra hlt
  rw [Nat.not_le] at hlt
  have hk := Nat.lt_of_lt_of_le hlt (toWritten_le pieces o)
  have hcopy := (lt_toWritten_iff hk o).1 hlt
  exact Nat.lt_irrefl _ ((lt_toWritten_iff hk o').2 (Nat.lt_of_lt_of_le hcopy h))

/-- **The maps are adjoint behind the first character**, whatever the pieces are. -/
theorem toShown_le_iff_of_pos {r : Nat} (hpos : 0 < r) (hr : r ≤ (written pieces).length)
    (o : Nat) : toShown pieces r ≤ o ↔ r ≤ toWritten pieces o := by
  obtain ⟨k, rfl⟩ := Nat.exists_eq_add_one_of_ne_zero (Nat.ne_of_gt hpos)
  rw [toShown_succ hr, Nat.succ_le_iff, Nat.succ_le_iff, lt_toWritten_iff hr]

/-- The start of a text of the cell is the start of its first piece. -/
theorem Alternates.toShown_zero (h : Alternates pieces) : toShown pieces 0 = 0 := by
  cases h with
  | nil => rfl
  | last _ => exact toShown_verbatim_of_le _ (Nat.zero_le _)
  | marked _ _ => exact toShown_verbatim_of_le _ (Nat.zero_le _)

/-- **The maps are adjoint behind the header.** -/
theorem Alternates.toShown_withHeader_le_iff (h : Alternates pieces) {header : Text} {r o : Nat}
    (hr : r ≤ (written pieces).length) (ho : header.length ≤ o) :
    toShown (withHeader header pieces) r ≤ o ↔ r ≤ toWritten (withHeader header pieces) o := by
  rcases Nat.eq_zero_or_pos r with rfl | hpos
  · refine iff_of_true ?_ (Nat.zero_le _)
    rwa [toShown_withHeader, h.toShown_zero, Nat.add_zero]
  · exact toShown_le_iff_of_pos hpos (by rwa [written_withHeader]) o

/-- Every offset in the header means the start of the cell. -/
theorem toWritten_withHeader_of_lt {header : Text} (pieces : List Piece) {o : Nat}
    (ho : o < header.length) : toWritten (withHeader header pieces) o = 0 := by
  have hne : header.isEmpty = false := by
    cases header with
    | nil => exact absurd ho (Nat.not_lt_zero o)
    | cons c header => rfl
  rw [withHeader, hne]
  exact if_pos ho

end Piece

/-! ### Spans -/

namespace Span

open Piece (shown written toShown toWritten)

/-- The document offset that placed pieces give an integer: in front of the cell it is the place of
the pieces. -/
def shownOffset (offset real : Int) (pieces : List Piece) (x : Int) : Int :=
  if x < real then offset else offset + toShown pieces (x - real).toNat

/-- The cell offset that placed pieces give an integer. -/
def writtenOffset (offset real : Int) (pieces : List Piece) (x : Int) : Int :=
  real + toWritten pieces (x - offset).toNat

theorem shownOffset_add (offset real : Int) (pieces : List Piece) (r : Nat) :
    shownOffset offset real pieces (real + r) = offset + toShown pieces r := by
  have htoNat : (real + (r : Int) - real).toNat = r := by omega
  rw [shownOffset, if_neg (by omega), htoNat]

theorem writtenOffset_add (offset real : Int) (pieces : List Piece) (o : Nat) :
    writtenOffset offset real pieces (offset + o) = real + toWritten pieces o := by
  have htoNat : (offset + (o : Int) - offset).toNat = o := by omega
  rw [writtenOffset, htoNat]

section Place

variable {uri : String} {pieces : List Piece} {offset real : Int}

theorem realStart_le_of_mem_place {s : Span} (h : s ∈ place uri offset real pieces) :
    real ≤ s.realStart := by
  induction pieces generalizing offset real with
  | nil => cases h
  | cons p pieces ih =>
    rw [place_cons] at h
    rcases List.mem_cons.1 h with rfl | h
    · exact Int.le_refl real
    · have hrest := ih h
      omega

theorem start_le_of_mem_place {s : Span} (h : s ∈ place uri offset real pieces) :
    offset ≤ s.start := by
  obtain ⟨front, back, -, hstart, -⟩ := mem_place uri h
  omega

/-- **The way to the document** of any integer. -/
theorem toSynthetic_place_int (h : pieces ≠ []) (x : Int) :
    toSynthetic (place uri offset real pieces) x = .ok (shownOffset offset real pieces x) := by
  rcases Int.lt_or_le x real with hlt | hle
  · -- no span takes what stands in front of all of them
    have hnone : (place uri offset real pieces).find?
        (fun s ↦ s.verbatim && s.realStart ≤ x && x ≤ s.realStop) = none := by
      rw [List.find?_eq_none]
      intro s hs
      have hstart := realStart_le_of_mem_place hs
      simp only [Bool.and_eq_true, decide_eq_true_eq]
      omega
    unfold toSynthetic
    rw [hnone, shownOffset, if_pos hlt]
    obtain ⟨p, pieces, rfl⟩ := List.exists_cons_of_ne_nil h
    rw [place_cons]
    exact if_pos hlt
  · obtain ⟨r, rfl⟩ := Int.le.dest hle
    rw [shownOffset_add, toSynthetic_place uri h]

/-- **The way back** of any integer. -/
theorem toReal_place_int (h : pieces ≠ []) (x : Int) :
    toReal (place uri offset real pieces) x = .ok (writtenOffset offset real pieces x) := by
  rcases Int.lt_or_le x offset with hlt | hle
  · have hnone : (place uri offset real pieces).find? (fun s ↦ s.contains x) = none := by
      rw [List.find?_eq_none]
      intro s hs
      have hstart := start_le_of_mem_place hs
      simp only [contains, Bool.and_eq_true, decide_eq_true_eq]
      omega
    have hzero : (x - offset).toNat = 0 := by omega
    unfold toReal
    rw [hnone, writtenOffset, hzero, Piece.toWritten_zero, Int.natCast_zero, Int.add_zero]
    obtain ⟨p, pieces, rfl⟩ := List.exists_cons_of_ne_nil h
    rw [place_cons]
    exact if_pos hlt
  · obtain ⟨o, rfl⟩ := Int.le.dest hle
    rw [writtenOffset_add, toReal_place uri h]

end Place

/-- The way to the document keeps the order of offsets. -/
theorem monotone_shownOffset (offset real : Int) (pieces : List Piece) :
    Monotone (shownOffset offset real pieces) := by
  intro x y hxy
  have hmono := Piece.toShown_mono pieces (Int.toNat_le_toNat (Int.sub_le_sub_right hxy real))
  simp only [shownOffset]
  split <;> split <;> omega

/-- The way back keeps the order of offsets too. -/
theorem monotone_writtenOffset (offset real : Int) (pieces : List Piece) :
    Monotone (writtenOffset offset real pieces) := by
  intro x y hxy
  have hmono := Piece.toWritten_mono pieces (Int.toNat_le_toNat (Int.sub_le_sub_right hxy offset))
  simp only [writtenOffset]
  omega

/-- **The offset maps of a layout are adjoint**, between the offsets of the text and those of the
document behind the header. They have a result for every integer and keep the order; to the document
and back is where one started; and all of the header goes to the start of the text. -/
theorem layOut_adjoint (uri : String) {text : Text} (htext : text ≠ []) (offset real : Int)
    (header : Text) (annotate : Bool) :
    ∃ toDocument toCell : Int → Int,
      (∀ r, toSynthetic (layOut uri text offset real header annotate) r = .ok (toDocument r)) ∧
      (∀ o, toReal (layOut uri text offset real header annotate) o = .ok (toCell o)) ∧
      (∀ r ∈ Set.Icc real (real + text.length), ∀ o ∈ Set.Icc (offset + header.length)
        (stopOf (layOut uri text offset real header annotate)),
          toDocument r ≤ o ↔ r ≤ toCell o) ∧
      Monotone toDocument ∧ Monotone toCell ∧
      (∀ r ∈ Set.Icc real (real + text.length), toCell (toDocument r) = r) ∧
      ∀ o ∈ Set.Ico offset (offset + header.length), toCell o = real := by
  have hturns := Piece.alternates_ofText annotate text
  have hwritten := Piece.written_ofText annotate text
  have hne : Piece.withHeader header (Piece.ofText annotate text) ≠ [] := by
    refine Piece.ne_nil_of_written_ne_nil ?_
    rwa [Piece.written_withHeader, hwritten]
  refine ⟨_, _, toSynthetic_place_int hne, toReal_place_int hne, ?_, monotone_shownOffset _ _ _,
    monotone_writtenOffset _ _ _, ?_, ?_⟩
  · rintro r ⟨hstart, hstop⟩ o ⟨hbehind, -⟩
    obtain ⟨r, rfl⟩ := Int.le.dest hstart
    obtain ⟨o, rfl⟩ := Int.le.dest (show offset ≤ o by omega)
    rw [shownOffset_add, writtenOffset_add, Int.add_le_add_iff_left, Int.add_le_add_iff_left,
      Int.ofNat_le, Int.ofNat_le]
    exact hturns.toShown_withHeader_le_iff (by rw [hwritten]; omega) (by omega)
  · rintro r ⟨hstart, hstop⟩
    obtain ⟨r, rfl⟩ := Int.le.dest hstart
    rw [shownOffset_add, writtenOffset_add, Piece.toWritten_toShown]
    rw [Piece.written_withHeader, hwritten]
    omega
  · rintro o ⟨hstart, hstop⟩
    obtain ⟨o, rfl⟩ := Int.le.dest hstart
    rw [writtenOffset_add, Piece.toWritten_withHeader_of_lt _ (by omega)]
    exact Int.add_zero real

/-- The text stops at an annotation at its end. All offsets from there on go back to that place, and
it goes to the first of them. -/
theorem layOut_adjoint_marked :
    let spans := layOut "nb-cell:a" "!ls\r\n%pwd".toList 10 3 ['\n'] true
    "!ls\r\n%pwd".toList ≠ [] ∧ ∃ toDocument toCell : Int → Int,
      (∀ r, toSynthetic spans r = .ok (toDocument r)) ∧
      (∀ o, toReal spans o = .ok (toCell o)) ∧ toDocument 12 = 35 ∧ toCell 35 = 12 ∧
      (∀ o ∈ Set.Icc 11 50, 35 ≤ o ↔ 12 ≤ toCell o) ∧ toCell 10 = 3 := by
  intro spans
  have htext : "!ls\r\n%pwd".toList ≠ [] := by decide
  obtain ⟨toDocument, toCell, hdocument, hcell, hiff, -, -, hback, hheader⟩ :=
    layOut_adjoint "nb-cell:a" htext 10 3 ['\n'] true
  have hstop : stopOf spans = 50 := by decide
  have hend : toDocument 12 = 35 :=
    Except.ok.inj ((hdocument 12).symm.trans (by decide : toSynthetic spans 12 = .ok 35))
  have hbound : (12 : Int) ∈ Set.Icc (3 : Int) (3 + "!ls\r\n%pwd".toList.length) := by
    constructor <;> decide
  refine ⟨htext, toDocument, toCell, hdocument, hcell, hend, ?_, ?_, ?_⟩
  · rw [← hend, hback 12 hbound]
  · intro o ho
    have h := hiff 12 hbound o (by rw [hstop]; exact ho)
    rwa [hend] at h
  · exact hheader 10 (by constructor <;> decide)

end Span

end CellStitch
