import CellStitch.Proofs.Span.OffsetMap
/-!
# Where the characters of a cell stand in the document

Every character of a cell has a copy in the document, in the verbatim span that carries it
(`Span.copy?`). An offset of the cell is a place between two characters, and the map of offsets puts
it before an annotation that begins there; the character behind that place stands behind the
annotation. So the copies need a recursion of their own (`Piece.copyAt`).

The map back counts: an offset of the document goes to the number of characters whose copies stand
before it (`Piece.lt_toWritten_iff`).
-/

namespace CellStitch

namespace Piece

/-- The offset in the shown text of a character of the written text. -/
def copyAt : List Piece → Nat → Nat
  | [], _ => 0
  | verbatim t :: pieces, k => if k < t.length then k else t.length + copyAt pieces (k - t.length)
  | injected t :: pieces, k => t.length + copyAt pieces k

theorem copyAt_lt {pieces : List Piece} {k : Nat} (hk : k < (written pieces).length) :
    copyAt pieces k < (shown pieces).length := by
  induction pieces generalizing k with
  | nil => exact absurd hk (Nat.not_lt_zero k)
  | cons p pieces ih =>
    rw [shown_cons, List.length_append]
    cases p with
    | verbatim t =>
      rw [written_verbatim, List.length_append] at hk
      simp only [copyAt, text]
      split
      · omega
      · have := ih (k := k - t.length) (by omega)
        omega
    | injected t => exact Nat.add_lt_add_left (ih hk) _

/-- **The copy of a character is the character.** -/
theorem getElem?_copyAt {pieces : List Piece} {k : Nat} (hk : k < (written pieces).length) :
    (shown pieces)[copyAt pieces k]? = (written pieces)[k]? := by
  induction pieces generalizing k with
  | nil => exact absurd hk (Nat.not_lt_zero k)
  | cons p pieces ih =>
    cases p with
    | verbatim t =>
      rw [written_verbatim, List.length_append] at hk
      simp only [copyAt, shown_cons, text, written_verbatim]
      split
      · rename_i hlt
        rw [List.getElem?_append_left hlt, List.getElem?_append_left hlt]
      · rename_i hge
        rw [List.getElem?_append_right (Nat.le_add_right _ _), Nat.add_sub_cancel_left,
          ih (by omega), List.getElem?_append_right (Nat.le_of_not_lt hge)]
    | injected t =>
      rw [copyAt, shown_cons, text, List.getElem?_append_right (Nat.le_add_right _ _),
        Nat.add_sub_cancel_left]
      exact ih hk

/-- The place behind a character goes to the place behind its copy. -/
theorem toShown_succ {pieces : List Piece} {k : Nat} (hk : k < (written pieces).length) :
    toShown pieces (k + 1) = copyAt pieces k + 1 := by
  induction pieces generalizing k with
  | nil => exact absurd hk (Nat.not_lt_zero k)
  | cons p pieces ih =>
    cases p with
    | verbatim t =>
      rw [written_verbatim, List.length_append] at hk
      simp only [copyAt]
      by_cases hin : k < t.length
      · rw [if_pos hin, toShown_verbatim_of_le pieces hin]
      · have hrest := ih (k := k - t.length) (by omega)
        rw [if_neg hin, toShown_verbatim_of_lt pieces (by omega), Nat.sub_add_comm (by omega), hrest,
          Nat.add_assoc]
    | injected t =>
      rw [toShown_injected, copyAt, ih hk, Nat.add_assoc]

/-- **The copy of a character goes back to the character.** -/
theorem toWritten_copyAt {pieces : List Piece} {k : Nat} (hk : k < (written pieces).length) :
    toWritten pieces (copyAt pieces k) = k := by
  induction pieces generalizing k with
  | nil => exact absurd hk (Nat.not_lt_zero k)
  | cons p pieces ih =>
    cases p with
    | verbatim t =>
      rw [written_verbatim, List.length_append] at hk
      simp only [copyAt]
      by_cases hin : k < t.length
      · rw [if_pos hin, toWritten_verbatim_of_lt pieces hin]
      · rw [if_neg hin, toWritten_verbatim_of_le pieces (Nat.le_add_right _ _),
          Nat.add_sub_cancel_left, ih (by omega)]
        omega
    | injected t =>
      rw [copyAt, toWritten_injected_of_le pieces (Nat.le_add_right _ _), Nat.add_sub_cancel_left]
      exact ih hk

/-- **The map back counts the characters whose copies stand before an offset.** -/
theorem lt_toWritten_iff {pieces : List Piece} {k : Nat} (hk : k < (written pieces).length)
    (o : Nat) : k < toWritten pieces o ↔ copyAt pieces k < o := by
  induction pieces generalizing k o with
  | nil => exact absurd hk (Nat.not_lt_zero k)
  | cons p pieces ih =>
    cases p with
    | verbatim t =>
      rw [written_verbatim, List.length_append] at hk
      simp only [toWritten, copyAt]
      by_cases hin : k < t.length
      · rw [if_pos hin]
        split <;> omega
      · have hrest := ih (k := k - t.length) (by omega) (o - t.length)
        rw [if_neg hin]
        split <;> omega
    | injected t =>
      have hrest := ih hk (o - t.length)
      simp only [toWritten, copyAt]
      split <;> omega

end Piece

namespace Span

open Piece (written copyAt)

/-- The document offset of a character of a cell: its place in the verbatim span that has it. -/
def copy? (spans : List Span) (k : Int) : Option Int :=
  (spans.find? fun s ↦ s.verbatim && s.realStart ≤ k && k < s.realStop).map
    fun s ↦ s.start + (k - s.realStart)

/-- **The copies of a layout** are those of its pieces. -/
theorem copy?_place (uri : String) {pieces : List Piece} (offset real : Int) {k : Nat}
    (hk : k < (written pieces).length) {x : Int} (hx : x = real + k) :
    copy? (place uri offset real pieces) x = some (offset + copyAt pieces k) := by
  -- by the pieces; what is written before moves the written place, and any piece the shown one
  induction pieces generalizing offset real k with
  | nil => exact absurd hk (Nat.not_lt_zero k)
  | cons p pieces ih =>
    cases p with
    | verbatim t =>
      rw [Piece.written_verbatim, List.length_append] at hk
      simp only [copy?, place, List.find?_cons, copyAt]
      by_cases hin : k < t.length
      · have htrue : (true && decide (real ≤ x) && decide (x < real + t.length)) = true := by
          simp; omega
        rw [htrue, if_pos hin, Option.map_some]
        congr 1
        simp only
        omega
      · have hfalse : (true && decide (real ≤ x) && decide (x < real + t.length)) = false := by
          simp; omega
        have hrest := ih (offset + t.length) (real + t.length) (k := k - t.length) (by omega)
          (by omega)
        rw [hfalse, if_neg hin]
        exact hrest.trans (congrArg some (by omega))
    | injected t =>
      simp only [copy?, place, List.find?_cons, copyAt, Bool.false_and]
      exact (ih (offset + t.length) real hk hx).trans (congrArg some (by omega))

end Span

end CellStitch
