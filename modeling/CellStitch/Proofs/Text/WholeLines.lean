import CellStitch.Proofs.Span.Layout
import CellStitch.Proofs.Text.Order
/-!
# Lines in front of a text

Whole lines in front of a text move its positions down and leave their characters
(`Text.positionAt_append`); what stands behind a text does not move them at all
(`Text.positionAt_append_of_le`).

The lines of a text hold no break, and lines that hold none are found again when they are joined
(`Text.lines_unlines`). So a text is rendered line by line (`Rendering.lines_text`), and keeps the
number of its lines.
-/

namespace CellStitch

namespace Text

/-! ### Whole lines -/

/-- A text that is empty or ended by a break, so that what follows it begins a line. -/
def WholeLines (t : Text) : Prop := t = [] ∨ ∃ u, t = u ++ ['\n']

theorem WholeLines.append {t u : Text} (ht : t.WholeLines) (hu : u.WholeLines) :
    (t ++ u).WholeLines := by
  rcases hu with rfl | ⟨v, rfl⟩
  · rwa [List.append_nil]
  · exact .inr ⟨t ++ v, (List.append_assoc t v _).symm⟩

/-- Only what stands behind the last break counts. -/
theorem column_append_break (t u : Text) : column (t ++ '\n' :: u) = column u := by
  induction t with
  | nil => exact column_cons_break u
  | cons c t ih =>
    have hbreak : (t ++ '\n' :: u).count '\n' ≠ 0 := by simp
    rw [List.cons_append, column_cons_of_count_ne_zero c hbreak, ih]

/-- **Whole lines in front move positions down**, and keep their characters. -/
theorem positionAt_append {t : Text} (ht : t.WholeLines) {u : Text} {o : Nat}
    (ho : o ≤ u.length) : positionAt (t ++ u) (t.length + o : Nat) =
      ⟨t.count '\n' + (u.positionAt o).line, (u.positionAt o).character⟩ := by
  have hle : t.length + o ≤ (t ++ u).length := by
    rw [List.length_append]
    exact Nat.add_le_add_left ho _
  rw [positionAt_natCast hle, positionAt_natCast ho, List.take_length_add_append,
    List.count_append]
  rcases ht with rfl | ⟨v, rfl⟩
  · rfl
  · rw [List.append_assoc, List.singleton_append, column_append_break]

/-- What stands behind an offset does not move its position. -/
theorem positionAt_append_of_le (u : Text) {t : Text} {o : Nat} (ho : o ≤ t.length) :
    positionAt (t ++ u) o = t.positionAt o := by
  have hle : o ≤ (t ++ u).length := by
    rw [List.length_append]
    exact Nat.le_add_right_of_le ho
  rw [positionAt_natCast hle, positionAt_natCast ho, List.take_append_of_le_length ho]

/-! ### Characters of a line -/

/-- The offset of a character of a line is behind all the lines above. -/
theorem offsetAt?_of_line {t line : Text} {l k : Nat} (h : t.lines[l]? = some line)
    (hk : k ≤ line.length) :
    t.offsetAt? ⟨l, k⟩ = some (lengthWithBreaks (t.lines.take l) + k) := by
  rw [offsetAt?, h, Option.map_some, Nat.min_eq_left hk]

/-- The position of a character of a line is found at its offset. -/
theorem positionAt_of_line {t line : Text} {l k : Nat} (h : t.lines[l]? = some line)
    (hk : k ≤ line.length) :
    lengthWithBreaks (t.lines.take l) + k ≤ t.length ∧
      t.positionAt (lengthWithBreaks (t.lines.take l) + k : Nat) = ⟨l, k⟩ := by
  obtain ⟨hle, hpos⟩ := positionAt_of_offsetAt? (offsetAt?_of_line h hk)
  rw [onLine_eq_self ⟨line, h, hk⟩] at hpos
  exact ⟨hle, hpos⟩

/-! ### Lines without breaks -/

theorem not_mem_of_mem_lines {t line : Text} (h : line ∈ t.lines) : '\n' ∉ line := by
  induction t generalizing line with
  | nil =>
    obtain rfl := List.mem_singleton.1 h
    exact List.not_mem_nil
  | cons c t ih =>
    by_cases hc : c = '\n'
    · subst hc
      rw [lines_cons_break] at h
      rcases List.mem_cons.1 h with rfl | h
      · exact List.not_mem_nil
      · exact ih h
    · obtain ⟨l, ls, hlines⟩ := exists_lines_eq_cons t
      rw [lines_cons_of_ne hc hlines] at h
      rw [hlines] at ih
      rcases List.mem_cons.1 h with rfl | h
      · rw [List.mem_cons, not_or]
        exact ⟨Ne.symm hc, ih List.mem_cons_self⟩
      · exact ih (List.mem_cons_of_mem l h)

theorem lines_of_not_mem {line : Text} (h : '\n' ∉ line) : lines line = [line] := by
  induction line with
  | nil => rfl
  | cons c line ih =>
    rw [List.mem_cons, not_or] at h
    exact lines_cons_of_ne (Ne.symm h.1) (ih h.2)

/-- **Lines are found again when they are joined.** -/
theorem lines_unlines {ls : List Text} (hne : ls ≠ []) (h : ∀ line ∈ ls, '\n' ∉ line) :
    lines (unlines ls) = ls := by
  induction ls with
  | nil => exact absurd rfl hne
  | cons l ls ih =>
    have hl := lines_of_not_mem (h l List.mem_cons_self)
    by_cases hls : ls = []
    · subst hls
      exact hl
    · rw [unlines_cons l hls, lines_append_break, hl,
        ih hls fun line hline ↦ h line (List.mem_cons_of_mem l hline), List.singleton_append]

end Text

/-! ### Rendering line by line -/

namespace Rendering

theorem not_mem_line (annotate : Bool) {l : Text} (h : '\n' ∉ l) : '\n' ∉ line annotate l := by
  have hmark : '\n' ∉ skipMark := by decide
  have hlast : '\n' ∉ l.dropLast := fun hmem ↦ h (l.dropLast_subset hmem)
  rw [line, markLine]
  split
  · split <;> simp [h, hmark, hlast]
  · exact h

/-- **A text is rendered line by line.** -/
theorem lines_text (annotate : Bool) (t : Text) :
    (text annotate t).lines = t.lines.map (line annotate) := by
  refine Text.lines_unlines ?_ ?_
  · simpa using Text.lines_ne_nil t
  · intro l hl
    obtain ⟨l', hl', rfl⟩ := List.mem_map.1 hl
    exact not_mem_line annotate (Text.not_mem_of_mem_lines hl')

theorem count_text (annotate : Bool) (t : Text) : (text annotate t).count '\n' = t.count '\n' := by
  have hlength := Text.length_lines (text annotate t)
  rw [lines_text, List.length_map, Text.length_lines] at hlength
  exact (Nat.succ.inj hlength).symm

end Rendering

end CellStitch
