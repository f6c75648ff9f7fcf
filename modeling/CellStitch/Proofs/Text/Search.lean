import CellStitch.Proofs.Bisection
import CellStitch.Proofs.Text.Positions
/-!
# What a search in a text finds

One search for a break behind the other finds the line starts (`searchedStarts_eq`), and among them
a search by halves finds the position of an offset (`amongStarts?_lineStarts`). Backwards from the
offset the same position is found (`positionBehindBreak?_eq`), because what is behind the last break
in front of it is its column (`lineStartBefore_add_column`).

The wire carries every position of a text that is not longer than the numbers on it
(`onWire?_positionAt`).
-/

namespace CellStitch

namespace Text

/-! ### One break behind the other -/

/-- The breaks of two texts in a row are those of the first, and those of the second moved by its
length. -/
theorem breaksFrom_append (i : Nat) (t u : Text) :
    breaksFrom i (t ++ u) = breaksFrom i t ++ breaksFrom (i + t.length) u := by
  induction t generalizing i with
  | nil => rfl
  | cons c t ih =>
    have hi : i + (c :: t).length = i + 1 + t.length := by
      rw [List.length_cons]
      omega
    rw [List.cons_append, hi]
    by_cases hc : c = '\n'
    · subst hc
      rw [breaksFrom_cons_break, breaksFrom_cons_break, ih, List.cons_append]
    · rw [breaksFrom_cons_of_ne hc, breaksFrom_cons_of_ne hc, ih]

theorem breaksFrom_of_not_mem {t : Text} (h : '\n' ∉ t) (i : Nat) : breaksFrom i t = [] := by
  rw [← List.length_eq_zero_iff, length_breaksFrom, List.count_eq_zero.2 h]

/-- The breaks that are found one behind the other are all breaks. The induction is that of the
search, which goes on behind each break. -/
theorem startsBehind_eq (t : Text) (i : Nat) : t.startsBehind i = breaksFrom i (t.drop i) := by
  fun_induction startsBehind t i with
  | case1 i hnone => rw [breaksFrom_of_not_mem (firstFrom?_eq_none_iff.1 hnone)]
  | case2 i b hb ih =>
    obtain ⟨part, rest, hdrop, hnot, rfl⟩ := firstFrom?_eq_some_iff.1 hb
    have hrest : t.drop (i + part.length + 1) = rest := by
      rw [Nat.add_assoc, ← List.drop_drop, hdrop, ← List.drop_drop, List.drop_left]
      rfl
    rw [ih, hrest, hdrop, breaksFrom_append, breaksFrom_of_not_mem hnot, List.nil_append,
      breaksFrom_cons_break]

/-- **The line starts are found one behind the other.** -/
theorem searchedStarts_eq (t : Text) : t.searchedStarts = t.lineStarts := by
  rw [searchedStarts, startsBehind_eq, List.drop_zero, lineStarts]

/-! ### Line starts by halves -/

theorem pairwise_breaksFrom (i : Nat) (t : Text) : (breaksFrom i t).Pairwise (· ≤ ·) := by
  induction t generalizing i with
  | nil => exact List.Pairwise.nil
  | cons c t ih =>
    by_cases hc : c = '\n'
    · subst hc
      rw [breaksFrom_cons_break, List.pairwise_cons]
      exact ⟨fun x hx ↦ Nat.le_of_lt (lt_of_mem_breaksFrom hx), ih (i + 1)⟩
    · rw [breaksFrom_cons_of_ne hc]
      exact ih (i + 1)

/-- Line starts increase, so that they can be searched by halves. -/
theorem pairwise_lineStarts (t : Text) : t.lineStarts.Pairwise (· ≤ ·) := by
  rw [lineStarts, List.pairwise_cons]
  exact ⟨fun x _ ↦ Nat.zero_le x, pairwise_breaksFrom 0 t⟩

/-- The first line starts at 0, so that some line starts at or before any offset. -/
theorem exists_countUpTo_lineStarts (t : Text) (o : Nat) :
    ∃ line, countUpTo t.lineStarts o = line + 1 ∧ line < t.lineStarts.length := by
  have hle := countUpTo_le t.lineStarts o
  have hpos : countUpTo t.lineStarts o = countUpTo (breaksFrom 0 t) o + 1 := by
    rw [lineStarts, countUpTo_cons, if_pos (Nat.zero_le o)]
  exact ⟨_, hpos, by omega⟩

/-- **A search by halves among the line starts** finds the position of an offset. -/
theorem amongStarts?_lineStarts {t : Text} {o : Nat} (ho : o ≤ t.length) :
    Position.amongStarts? t.lineStarts o = (t.positionAt o).onWire? := by
  obtain ⟨line, hcount, hlt⟩ := exists_countUpTo_lineStarts t o
  have hget := List.getElem?_eq_getElem hlt
  have hle : t.lineStarts[line] ≤ o := le_of_lt_countUpTo (by omega) hget
  have hpos : t.positionAt o = ⟨line, o - t.lineStarts[line]⟩ := by
    rw [← ofLineStarts_lineStarts ho, Position.ofLineStarts, hcount, Nat.add_sub_cancel,
      List.getD_eq_getElem?_getD, hget, Option.getD_some]
  rw [hpos, Position.amongStarts?, bisect_zero_length t.pairwise_lineStarts, hcount]
  simp only [hget, Option.bind_some, Position.onWire?, Int.ofNat_sub hle]

/-! ### Backwards -/

theorem lineStartBefore_succ_of_break {t : Text} {o : Nat} (h : t[o]? = some '\n') :
    t.lineStartBefore (o + 1) = o + 1 := by
  rw [lineStartBefore, lastBefore?, if_pos h]

theorem lineStartBefore_succ_of_ne {t : Text} {o : Nat} (h : t[o]? ≠ some '\n') :
    t.lineStartBefore (o + 1) = t.lineStartBefore o := by
  rw [lineStartBefore, lastBefore?, if_neg h, lineStartBefore]

theorem column_append_singleton (t : Text) (c : Char) :
    column (t ++ [c]) = if c = '\n' then 0 else column t + 1 := by
  by_cases hc : c = '\n' <;> simp [column, hc]

/-- **The column is what is behind the last break** in front of an offset. -/
theorem lineStartBefore_add_column {t : Text} {o : Nat} (ho : o ≤ t.length) :
    t.lineStartBefore o + column (t.take o) = o := by
  induction o with
  | zero => rfl
  | succ o ih =>
    have hget := List.getElem?_eq_getElem ho
    rw [List.take_add_one, hget, Option.toList_some, column_append_singleton]
    by_cases hc : t[o] = '\n'
    · rw [lineStartBefore_succ_of_break (by rw [hget, hc]), if_pos hc, Nat.add_zero]
    · rw [lineStartBefore_succ_of_ne (by rw [hget]; simpa using hc), if_neg hc, ← Nat.add_assoc,
        ih (Nat.le_of_succ_le ho)]

/-- **Backwards from an offset** its position is found as well. -/
theorem positionBehindBreak?_eq (t : Text) (o : Int) :
    t.positionBehindBreak? o = (t.positionAt o).onWire? := by
  have hcolumn := lineStartBefore_add_column (clamp_le t.length o)
  have hbehind : (clamp t.length o : Int) - t.lineStartBefore (clamp t.length o) =
      column (t.take (clamp t.length o)) := by omega
  simp only [positionBehindBreak?, hbehind]
  rfl

-- The offset stands on the break that ends an empty line.
example : Position.amongStarts? (searchedStarts "foo\n\nbar".toList) 4 = some ⟨1, 0⟩ ∧
    positionBehindBreak? "foo\n\nbar".toList 4 = some ⟨1, 0⟩ := by
  decide +kernel

/-! ### Numbers on the wire -/

/-- A column is not greater than the text is long. -/
theorem column_le (t : Text) : column t ≤ t.length :=
  (List.takeWhile_prefix _).length_le.trans_eq List.length_reverse

/-- The wire carries the positions of a text that is not longer than its largest number. -/
theorem onWire?_positionAt {t : Text} (h : (t.length : Int) ≤ Position.bound) (o : Int) :
    (t.positionAt o).onWire? = some (t.positionAt o) := by
  have htake : (t.take (clamp t.length o)).length ≤ t.length := List.length_take_le' _ _
  have hline : (t.positionAt o).line ≤ t.length := List.count_le_length.trans htake
  have hcharacter : (t.positionAt o).character ≤ t.length := (column_le _).trans htake
  rw [Position.onWire?, Position.ofInts?, if_pos (by omega)]
  rfl

end Text

end CellStitch
