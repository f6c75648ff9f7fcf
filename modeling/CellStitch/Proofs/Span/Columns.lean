import CellStitch.Proofs.Span.OffsetMap
import CellStitch.Proofs.Text.WholeLines
/-!
# Columns through a layout

The pieces of a text send a character of a line to the same character of the rendered line
(`Piece.toShown_ofText`). Annotations in the lines above lengthen these lines, and that is all they
do.

Only the end of a line may move. An annotation stands before a carriage return that ends its line,
so the end of such a line is found behind the annotation (`shownColumn`). Where a line has no
carriage return, its end is the place before the annotation.
-/

namespace CellStitch

/-- The character of a rendered line at which a character of the line stands. It is the same one,
but for the end of an annotated line that has a carriage return there. -/
def shownColumn (annotate : Bool) (line : Text) (k : Nat) : Nat :=
  if annotate && needsSkipMark line && line.endsWith '\r' && k == line.length then
    k + skipMark.length
  else k

/-- The empty line needs no annotation. -/
theorem ne_nil_of_needsSkipMark {line : Text} (h : needsSkipMark line = true) : line ≠ [] := by
  rintro rfl
  cases h

theorem shownColumn_zero (annotate : Bool) (line : Text) : shownColumn annotate line 0 = 0 := by
  cases line with
  | nil => simp [shownColumn, Text.endsWith]
  | cons c line => simp [shownColumn]

section Lines

variable {annotate : Bool} {line : Text}

/-- An annotated line is longer by its annotation. -/
theorem length_line_of_marked (h : (annotate && needsSkipMark line) = true) :
    (Rendering.line annotate line).length = line.length + skipMark.length := by
  rw [Rendering.line, if_pos h, Rendering.markLine]
  split
  · rename_i hreturn
    have hpos : 0 < line.length :=
      List.length_pos_iff.2 (ne_nil_of_needsSkipMark (Bool.and_eq_true_iff.1 h).2)
    simp only [List.length_append, List.length_dropLast, List.length_singleton]
    omega
  · rw [List.length_append]

/-- No column of a line is shown behind the end of the rendered line. -/
theorem shownColumn_le {k : Nat} (hk : k ≤ line.length) :
    shownColumn annotate line k ≤ (Rendering.line annotate line).length := by
  unfold shownColumn
  by_cases h : (annotate && needsSkipMark line) = true
  · rw [length_line_of_marked h]
    split <;> omega
  · rw [Rendering.line, if_neg h]
    simpa [h] using hk

end Lines

namespace Piece

/-! ### Text in front of pieces -/

section Write

variable {t : Text} {r : Nat} (pieces : List Piece)

theorem toShown_write_of_le (ht : t ≠ []) (h : r ≤ t.length) : toShown (write t pieces) r = r := by
  obtain ⟨c, t, rfl⟩ := List.exists_cons_of_ne_nil ht
  cases pieces with
  | nil => exact toShown_verbatim_of_le [] h
  | cons p pieces =>
    cases p with
    | verbatim u =>
      have hle : r ≤ (c :: t ++ u).length := by
        rw [List.length_append]
        exact Nat.le_add_right_of_le h
      exact toShown_verbatim_of_le pieces hle
    | injected u => exact toShown_verbatim_of_le (injected u :: pieces) h

theorem toShown_write_of_lt (h : t.length < r) :
    toShown (write t pieces) r = t.length + toShown pieces (r - t.length) := by
  cases t with
  | nil => exact (Nat.zero_add _).symm
  | cons c t =>
    cases pieces with
    | nil => exact toShown_verbatim_of_lt [] h
    | cons p pieces =>
      cases p with
      | verbatim u =>
        -- both sides ask whether the offset lies in the joined text
        show (if r ≤ (c :: t ++ u).length then r else _) = _ + (if _ ≤ u.length then _ else _)
        rw [List.length_append]
        split <;> split <;> first | omega | skip
        rw [Nat.sub_sub]
        omega
      | injected u => exact toShown_verbatim_of_lt (injected u :: pieces) h

/-- Text in front of pieces that do not begin with an annotation. -/
theorem toShown_write (hpieces : toShown pieces 0 = 0) (h : r ≤ t.length) :
    toShown (write t pieces) r = r := by
  by_cases ht : t = []
  · subst ht
    obtain rfl : r = 0 := Nat.le_zero.1 h
    exact hpieces
  · exact toShown_write_of_le pieces ht h

end Write

/-! ### One line -/

theorem length_cutLine (line : Text) :
    (cutLine line).1.length + (cutLine line).2.length = line.length := by
  rw [← List.length_append, cutLine_append]

section WriteLine

variable (annotate : Bool) {line : Text} (pieces : List Piece)

/-- A character of a line that stands in front of pieces. -/
theorem toShown_writeLine_of_le (hpieces : toShown pieces 0 = 0) {k : Nat} (hk : k ≤ line.length) :
    toShown (writeLine annotate line pieces) k = shownColumn annotate line k := by
  by_cases hmark : (annotate && needsSkipMark line) = true
  · rw [writeLine, if_pos hmark, shownColumn, hmark, Bool.true_and]
    have hne := cutLine_fst_ne_nil (Bool.and_eq_true_iff.1 hmark).2
    have hlength := length_cutLine line
    by_cases hreturn : line.endsWith '\r' = true
    · have hcut : (cutLine line).2 = ['\r'] := by rw [cutLine, if_pos hreturn]
      rw [hcut, List.length_singleton] at hlength
      rw [hcut, hreturn, Bool.true_and]
      rcases Nat.lt_or_eq_of_le hk with hlt | rfl
      · rw [if_neg (by simpa using Nat.ne_of_lt hlt)]
        exact toShown_write_of_le _ hne (by omega)
      · -- the carriage return is passed, and with it the annotation
        have hrest : line.length - (cutLine line).1.length = 1 := by omega
        rw [if_pos (beq_self_eq_true _), toShown_write_of_lt _ (by omega), toShown_injected, hrest,
          toShown_write_of_le _ (List.cons_ne_nil _ _) (Nat.le_refl 1)]
        omega
    · have hcut : (cutLine line).1 = line := by rw [cutLine, if_neg hreturn]
      rw [hcut] at hne ⊢
      rw [Bool.eq_false_iff.2 hreturn, Bool.false_and]
      exact toShown_write_of_le _ hne hk
  · rw [writeLine, if_neg hmark, toShown_write pieces hpieces hk, shownColumn,
      Bool.eq_false_iff.2 hmark]
    rfl

/-- What stands behind a line is moved by what the line shows. -/
theorem toShown_writeLine_of_lt {r : Nat} (h : line.length < r) :
    toShown (writeLine annotate line pieces) r =
      (Rendering.line annotate line).length + toShown pieces (r - line.length) := by
  have hlength := length_cutLine line
  by_cases hmark : (annotate && needsSkipMark line) = true
  · rw [writeLine, if_pos hmark, length_line_of_marked hmark, toShown_write_of_lt _ (by omega),
      toShown_injected, toShown_write_of_lt _ (by omega), Nat.sub_sub, hlength]
    omega
  · rw [writeLine, if_neg hmark, Rendering.line, if_neg hmark, toShown_write_of_lt _ h]

end WriteLine

/-! ### All lines -/

theorem toShown_break_zero (pieces : List Piece) : toShown (write ['\n'] pieces) 0 = 0 :=
  toShown_write_of_le pieces (List.cons_ne_nil _ _) (Nat.zero_le _)

/-- A first line stands in front of pieces that do not begin with an annotation. -/
theorem exists_ofLines_eq (annotate : Bool) (line : Text) (ls : List Text) :
    ∃ pieces, ofLines annotate (line :: ls) = writeLine annotate line pieces ∧
      toShown pieces 0 = 0 := by
  by_cases hls : ls = []
  · subst hls
    exact ⟨[], rfl, rfl⟩
  · exact ⟨_, ofLines_cons annotate line hls, toShown_break_zero _⟩

/-- The first character of the cell is shown at the start, for no annotation stands in front of it.
-/
theorem toShown_ofLines_zero (annotate : Bool) (ls : List Text) :
    toShown (ofLines annotate ls) 0 = 0 := by
  cases ls with
  | nil => rfl
  | cons line ls =>
    obtain ⟨pieces, heq, hzero⟩ := exists_ofLines_eq annotate line ls
    rw [heq, toShown_writeLine_of_le annotate pieces hzero (Nat.zero_le _), shownColumn_zero]

/-- A break in front of lines comes before them. -/
theorem toShown_break_ofLines (annotate : Bool) (ls : List Text) (r : Nat) :
    toShown (write ['\n'] (ofLines annotate ls)) (r + 1) =
      toShown (ofLines annotate ls) r + 1 := by
  rcases Nat.eq_zero_or_pos r with rfl | hr
  · rw [toShown_ofLines_zero]
    exact toShown_write_of_le _ (List.cons_ne_nil _ _) (Nat.le_refl 1)
  · have hlt : ['\n'].length < r + 1 := Nat.succ_lt_succ hr
    rw [toShown_write_of_lt _ hlt, List.length_singleton, Nat.add_sub_cancel, Nat.add_comm]

/-- A character of a line stands on the rendered line, behind the rendered lines above. -/
theorem toShown_ofLines (annotate : Bool) {ls : List Text} {l : Nat} {line : Text}
    (h : ls[l]? = some line) {k : Nat} (hk : k ≤ line.length) :
    toShown (ofLines annotate ls) (Text.lengthWithBreaks (ls.take l) + k) =
      Text.lengthWithBreaks ((ls.map (Rendering.line annotate)).take l) +
        shownColumn annotate line k := by
  induction ls generalizing l with
  | nil => cases h
  | cons first ls ih =>
    cases l with
    | zero =>
      obtain rfl : first = line := Option.some.inj h
      obtain ⟨pieces, heq, hzero⟩ := exists_ofLines_eq annotate first ls
      simpa [heq, Text.lengthWithBreaks] using
        toShown_writeLine_of_le annotate pieces hzero hk
    | succ l =>
      have hls : ls ≠ [] := by
        rintro rfl
        cases h
      set r := Text.lengthWithBreaks (ls.take l) + k with hr
      have hsplit : Text.lengthWithBreaks ((first :: ls).take (l + 1)) + k =
          first.length + (r + 1) := by
        rw [List.take_succ_cons, Text.lengthWithBreaks]
        omega
      have hlt : first.length < first.length + (r + 1) := by omega
      rw [hsplit, ofLines_cons annotate first hls, toShown_writeLine_of_lt annotate _ hlt,
        Nat.add_sub_cancel_left, toShown_break_ofLines, ih h, List.map_cons, List.take_succ_cons,
        Text.lengthWithBreaks]
      omega

/-- **A character of a line stands on the rendered line**, at the same column but for an end behind
an annotation. -/
theorem toShown_ofText (annotate : Bool) {t : Text} {l : Nat} {line : Text}
    (h : t.lines[l]? = some line) {k : Nat} (hk : k ≤ line.length) :
    toShown (ofText annotate t) (Text.lengthWithBreaks (t.lines.take l) + k) =
      Text.lengthWithBreaks ((Rendering.text annotate t).lines.take l) +
        shownColumn annotate line k := by
  rw [Rendering.lines_text]
  exact toShown_ofLines annotate h hk

/-- A header moves all that is shown behind it. -/
theorem toShown_withHeader (header : Text) (pieces : List Piece) (r : Nat) :
    toShown (withHeader header pieces) r = header.length + toShown pieces r := by
  unfold withHeader
  split
  · rename_i h
    rw [List.isEmpty_iff.1 h]
    exact (Nat.zero_add _).symm
  · rfl

end Piece

end CellStitch
