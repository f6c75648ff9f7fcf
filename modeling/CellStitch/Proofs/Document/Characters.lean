import CellStitch.Proofs.Document.Coverage
import CellStitch.Proofs.Document.Lines
/-!
# Characters of cells and their copies

Where the copy of a character stands is said by line and column (`copyPosition`): below the lines in
front of the cell, and in the column of the character, unless an annotation comes before it. That is
so for the carriage return that ends an annotated line, and for the break.

From there the way back leads to the character (`notebookLocationAt_copyPosition`). The way to the
document is of no use here: it sends a place between two characters to the place in front of an
annotation that begins there, while the character stands behind (`Piece.copyAt`). But the place
behind a character goes to the place behind its copy (`Piece.toShown_succ`), and so the columns are
taken from there.
-/

namespace CellStitch

/-- The column of the copy of a character of a line, or of the break that ends the line. What stands
behind an annotation is moved by it. -/
def copyColumn (annotate : Bool) (line : Text) (k : Nat) : Nat :=
  if annotate && needsSkipMark line && decide ((Piece.cutLine line).1.length ≤ k) then
    k + skipMark.length
  else k

/-- The position of the copy of a character of a text, where the rendered text begins on a given
line. -/
def copyPosition (annotate : Bool) (firstLine : Nat) (t : Text) (k : Nat) : Position :=
  let p := t.positionAt k
  ⟨firstLine + p.line, copyColumn annotate (t.lines.getD p.line []) p.character⟩

section Columns

variable {annotate : Bool} {line : Text}

/-- Behind a character of a line stands what is behind its copy. -/
theorem shownColumn_succ {k : Nat} (hk : k < line.length) :
    shownColumn annotate line (k + 1) = copyColumn annotate line k + 1 := by
  rw [shownColumn, copyColumn]
  by_cases hmark : (annotate && needsSkipMark line) = true
  · rw [hmark, Bool.true_and, Bool.true_and, Piece.cutLine]
    by_cases hreturn : line.endsWith '\r' = true
    · -- only the carriage return stands behind the annotation
      rw [hreturn, if_pos rfl, List.length_dropLast, Bool.true_and]
      by_cases hlast : k + 1 = line.length
      · rw [if_pos (beq_iff_eq.2 hlast), if_pos (decide_eq_true (by omega))]
        omega
      · rw [if_neg (mt beq_iff_eq.1 hlast), if_neg (by simp; omega)]
    · have hfront : ¬ line.length ≤ k := Nat.not_le_of_lt hk
      simp [hreturn, hfront]
  · rw [Bool.eq_false_iff.2 hmark]
    rfl

/-- The copy of a break stands at the end of the rendered line. -/
theorem copyColumn_length :
    copyColumn annotate line line.length = (Rendering.line annotate line).length := by
  rw [copyColumn]
  by_cases h : (annotate && needsSkipMark line) = true
  · have hcut := Piece.length_cutLine line
    rw [length_line_of_marked h, h, Bool.true_and, if_pos (decide_eq_true (by omega))]
  · rw [Rendering.line, if_neg h, Bool.eq_false_iff.2 h]
    rfl

theorem copyColumn_le {k : Nat} (hk : k ≤ line.length) :
    copyColumn annotate line k ≤ (Rendering.line annotate line).length := by
  rcases Nat.lt_or_eq_of_le hk with hlt | rfl
  · have hle : shownColumn annotate line (k + 1) ≤ (Rendering.line annotate line).length :=
      shownColumn_le (Nat.succ_le_of_lt hlt)
    rw [shownColumn_succ hlt] at hle
    omega
  · exact Nat.le_of_eq copyColumn_length

end Columns

namespace Document

open Piece (copyAt toShown written)

namespace Site

variable {d : Document} {uri : String} (s : d.Site uri)

/-- **The copy of a character** stands on the rendered line, in its column. -/
theorem offset_add_copyAt {l col : Nat} {line : Text} (h : s.cell.text.lines[l]? = some line)
    (hcol : col ≤ line.length)
    (hk : Text.lengthWithBreaks (s.cell.text.lines.take l) + col < s.cell.text.length) :
    s.offset + copyAt s.pieces (Text.lengthWithBreaks (s.cell.text.lines.take l) + col) =
      s.lead.length + (Text.lengthWithBreaks
        ((Rendering.text d.settings.marks s.cell.text).lines.take l) +
          copyColumn d.settings.marks line col) := by
  have hsucc := Piece.toShown_succ (s.lt_length_written hk)
  rcases Nat.lt_or_eq_of_le hcol with hlt | rfl
  · -- the place behind the character is on its line
    have hbehind := s.offset_add_toShown h (Nat.succ_le_of_lt hlt)
    rw [shownColumn_succ hlt, ← Nat.add_assoc _ col 1, hsucc] at hbehind
    omega
  · -- the character is the break, and the place behind it is on the next line
    have htake := Text.lengthWithBreaks_take_succ h
    obtain ⟨next, hnext⟩ : ∃ next, s.cell.text.lines[l + 1]? = some next := by
      refine ⟨_, List.getElem?_eq_getElem (Nat.lt_of_not_le fun hle ↦ ?_)⟩
      rw [List.take_of_length_le hle, Text.lengthWithBreaks_lines] at htake
      omega
    have hrendered : (Rendering.text d.settings.marks s.cell.text).lines[l]? =
        some (Rendering.line d.settings.marks line) := by
      rw [Rendering.lines_text, List.getElem?_map, h, Option.map_some]
    have hbehind := s.offset_add_toShown hnext (Nat.zero_le _)
    rw [shownColumn_zero, htake, Text.lengthWithBreaks_take_succ hrendered, ← copyColumn_length,
      Nat.add_zero, Nat.add_zero, ← Nat.add_assoc _ line.length 1, hsucc] at hbehind
    omega

/-- **The place of a copy** by line and column. -/
theorem positionAt_copyAt (h : Reachable d) {k : Nat} (hk : k < s.cell.text.length) :
    d.positionAt (s.offset + copyAt s.pieces k : Nat) =
      copyPosition d.settings.marks (d.baseLine s.before.length) s.cell.text k := by
  obtain ⟨line, hline, hcol⟩ := Text.hasPosition_positionAt (Nat.le_of_lt hk)
  have hoffset := Text.offsetAt?_positionAt (Nat.le_of_lt hk)
  set p := s.cell.text.positionAt k with hp
  rw [Text.offsetAt?_of_line hline hcol, Option.some_inj] at hoffset
  have hrendered : (Rendering.text d.settings.marks s.cell.text).lines[p.line]? =
      some (Rendering.line d.settings.marks line) := by
    rw [Rendering.lines_text, List.getElem?_map, hline, Option.map_some]
  rw [← hoffset] at hk ⊢
  rw [s.offset_add_copyAt hline hcol hk, s.positionAt_lead h hrendered (copyColumn_le hcol),
    s.count_lead, copyPosition, hoffset, ← hp, List.getD_eq_getElem?_getD, hline, Option.getD_some]

/-- The copy of a character goes back to the character. -/
theorem notebookLocationAt_copyAt {k : Nat} (hk : k < s.cell.text.length)
    {p : Position} (hp : d.offsetAt p = .ok (s.offset + copyAt s.pieces k)) :
    d.notebookLocationAt ⟨p, p⟩ = .ok ⟨uri, ⟨s.cell.positionAt k, s.cell.positionAt k⟩⟩ := by
  have hcovers : s.Covers (s.offset + copyAt s.pieces k) :=
    ⟨Nat.le_add_right _ _, .inl (Nat.add_lt_add_left (Piece.copyAt_lt (s.lt_length_written hk)) _)⟩
  have hback : d.notebookOffsetAt p = .ok (uri, (k : Int)) := by
    rw [s.notebookOffsetAt_of_covers hp hcovers, Nat.add_sub_cancel_left,
      Piece.toWritten_copyAt (s.lt_length_written hk), Nat.min_eq_left (Nat.le_of_lt hk)]
  rw [notebookLocationAt, hback, ok_bind]
  simp only [s.firstAt.cell?]
  rw [ok_bind, if_pos rfl, Int.max_self]
  rfl

end Site

/-- **From the copy of a character the way back leads to the character.** The copy is found by its
line and its column, which the header, the cells above and the annotation of the line decide. -/
theorem notebookLocationAt_copyPosition {d : Document} (h : Reachable d)
    (hdistinct : d.cellUris.Nodup)
    {before after : CellList} {c : Cell} (hcells : d.cells = before ++ c :: after) {k : Nat}
    (hk : k < c.text.length) :
    let p := copyPosition d.settings.marks (d.baseLine before.length) c.text k
    ∃ o : Nat, d.text.positionAt o = p ∧ d.text[o]? = c.text[k]? ∧
      d.notebookLocationAt ⟨p, p⟩ = .ok ⟨c.uri, ⟨c.positionAt k, c.positionAt k⟩⟩ := by
  have hd := h.settled
  have hfirst := firstAt_of_nodup hdistinct hcells
  generalize c.uri = uri at hfirst ⊢
  obtain ⟨s, rfl, rfl, -⟩ := hd.exists_site_of_firstAt hfirst
  have hcopy := s.getElem?_text hd hk
  have hlt : s.offset + copyAt s.pieces k < d.text.length := by
    rw [List.getElem?_eq_getElem hk] at hcopy
    exact (List.getElem?_eq_some_iff.1 hcopy).1
  have hp := (hd.positionAt_eq (Nat.le_of_lt hlt)).symm.trans (s.positionAt_copyAt h hk)
  have hoffset := Text.offsetAt?_positionAt (Nat.le_of_lt hlt)
  rw [hp] at hoffset
  exact ⟨_, hp, hcopy, s.notebookLocationAt_copyAt hk (hd.offsetAt_eq hoffset)⟩

end Document

end CellStitch
