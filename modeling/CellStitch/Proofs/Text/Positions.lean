import CellStitch.Text.LineStarts
import CellStitch.Text.Offsets
import Mathlib.Data.List.TakeWhile
/-!
# Offsets and positions of a text

The three ways from an offset to a position and back agree: counting breaks (`Text.positionAt`),
adding up lines (`Text.offsetAt?`), and searching the line starts (`Position.ofLineStarts`).

Each of them has equations that take the first character off the text; the facts about whole texts
are then one induction on the text each.

* `Text.offsetAt?_positionAt`: an offset of a text is found again from its position.
* `Text.positionAt_of_offsetAt?`: a position is found again from its offset, up to the cut of its
  character to the line (`Text.onLine`).
* `Text.ofLineStarts_lineStarts`: both kinds of arithmetic give the same positions, also of offsets
  that lie outside the text (`Text.ofLineStarts_clamp`).
-/

namespace CellStitch

namespace Text

/-! ### Lines -/

/-- A break in front of a text puts an empty line in front of its lines. -/
theorem lines_cons_break (t : Text) : lines ('\n' :: t) = [] :: lines t :=
  splitOn_cons_self '\n' t

/-- Any other character in front of a text belongs to its first line. -/
theorem lines_cons_of_ne {c : Char} (hc : c ≠ '\n') {t l : Text} {ls : List Text}
    (h : lines t = l :: ls) : lines (c :: t) = (c :: l) :: ls :=
  splitOn_cons_of_ne hc h

/-- Every text has a first line. -/
theorem exists_lines_eq_cons (t : Text) : ∃ l ls, lines t = l :: ls :=
  List.exists_cons_of_ne_nil (lines_ne_nil t)

/-- **A break separates lines.** What stands on its two sides is cut for itself. -/
theorem lines_append_break (t u : Text) : lines (t ++ '\n' :: u) = lines t ++ lines u := by
  induction t with
  | nil => exact lines_cons_break u
  | cons c t ih =>
    by_cases hc : c = '\n'
    · subst hc
      rw [List.cons_append, lines_cons_break, lines_cons_break, ih, List.cons_append]
    · obtain ⟨l, ls, h⟩ := exists_lines_eq_cons t
      have htu : lines (t ++ '\n' :: u) = l :: (ls ++ lines u) := by rw [ih, h, List.cons_append]
      rw [List.cons_append, lines_cons_of_ne hc h, lines_cons_of_ne hc htu, List.cons_append]

/-- There is one line more than there are breaks. -/
theorem length_lines (t : Text) : (lines t).length = t.count '\n' + 1 := by
  induction t with
  | nil => rfl
  | cons c t ih =>
    by_cases hc : c = '\n'
    · subst hc
      rw [lines_cons_break, List.length_cons, ih, List.count_cons_self]
    · obtain ⟨l, ls, h⟩ := exists_lines_eq_cons t
      rw [h] at ih
      rw [lines_cons_of_ne hc h, List.count_cons_of_ne hc, ← ih]
      rfl

/-! ### From positions to offsets -/

/-- A position with its character cut to the line. -/
def onLine (t : Text) (p : Position) : Position :=
  ⟨p.line, min p.character (t.lines.getD p.line []).length⟩

/-- The only place of the empty text is at its start, whatever character of the first line is asked
for. -/
@[simp] theorem offsetAt?_nil_zero (k : Nat) : offsetAt? [] ⟨0, k⟩ = some 0 := by
  simp [offsetAt?, lines, lengthWithBreaks]

@[simp] theorem offsetAt?_nil_succ (l k : Nat) : offsetAt? [] ⟨l + 1, k⟩ = none := by
  simp [offsetAt?, lines]

/-- The first line ends at a break that begins the text, and every character of it is cut there. -/
@[simp] theorem offsetAt?_break_zero (t : Text) (k : Nat) :
    offsetAt? ('\n' :: t) ⟨0, k⟩ = some 0 := by
  simp [offsetAt?, lines_cons_break, lengthWithBreaks]

/-- Behind a break that begins the text, lines are counted anew. -/
@[simp] theorem offsetAt?_break_succ (t : Text) (l k : Nat) :
    offsetAt? ('\n' :: t) ⟨l + 1, k⟩ = (offsetAt? t ⟨l, k⟩).map (· + 1) := by
  simp only [offsetAt?, lines_cons_break, List.getElem?_cons_succ, List.take_succ_cons,
    lengthWithBreaks, List.length_nil, Option.map_map]
  congr 1
  funext line
  simp only [Function.comp_apply]
  omega

section Character

variable {c : Char} (hc : c ≠ '\n') (t : Text)
include hc

theorem offsetAt?_cons_zero_zero : offsetAt? (c :: t) ⟨0, 0⟩ = some 0 := by
  obtain ⟨l, ls, h⟩ := exists_lines_eq_cons t
  simp [offsetAt?, lines_cons_of_ne hc h, lengthWithBreaks]

/-- On the first line a further character is found one place further in the rest. -/
theorem offsetAt?_cons_zero_succ (k : Nat) :
    offsetAt? (c :: t) ⟨0, k + 1⟩ = (offsetAt? t ⟨0, k⟩).map (· + 1) := by
  obtain ⟨l, ls, h⟩ := exists_lines_eq_cons t
  simp [offsetAt?, lines_cons_of_ne hc h, h, lengthWithBreaks]

/-- A character that is no break moves the places on later lines by one, and not their lines. -/
theorem offsetAt?_cons_succ (l k : Nat) :
    offsetAt? (c :: t) ⟨l + 1, k⟩ = (offsetAt? t ⟨l + 1, k⟩).map (· + 1) := by
  obtain ⟨line, ls, h⟩ := exists_lines_eq_cons t
  simp only [offsetAt?, lines_cons_of_ne hc h, h, List.getElem?_cons_succ, List.take_succ_cons,
    lengthWithBreaks, List.length_cons, Option.map_map]
  congr 1
  funext line
  simp only [Function.comp_apply]
  omega

end Character

/-- A position has an offset exactly if its line exists. -/
theorem offsetAt?_isSome_iff {t : Text} {p : Position} :
    (t.offsetAt? p).isSome ↔ p.line < t.lines.length := by
  simp [offsetAt?]

/-- A position on a line of the text has an offset, at whatever character. -/
theorem exists_offsetAt?_of_lt {t : Text} {p : Position} (h : p.line < t.lines.length) :
    ∃ o, t.offsetAt? p = some o :=
  Option.isSome_iff_exists.1 (offsetAt?_isSome_iff.2 h)

/-- A position with an offset lies on a line of the text. -/
theorem lt_of_offsetAt?_eq_some {t : Text} {p : Position} {o : Nat} (h : t.offsetAt? p = some o) :
    p.line < t.lines.length :=
  offsetAt?_isSome_iff.1 (by rw [h]; rfl)

/-! ### From offsets to positions -/

/-- The number of characters behind the last break of a text. -/
def column (t : Text) : Nat := (t.reverse.takeWhile (· ≠ '\n')).length

@[simp] theorem column_nil : column [] = 0 := rfl

/-- In a text without breaks the column is the number of all characters. -/
theorem column_of_count_eq_zero {t : Text} (h : t.count '\n' = 0) : column t = t.length := by
  have hall : ∀ c ∈ t.reverse, decide (c ≠ '\n') = true := by
    intro c hc
    exact decide_eq_true fun heq ↦ List.count_eq_zero.1 h (heq ▸ List.mem_reverse.1 hc)
  rw [column, List.takeWhile_eq_self_iff.2 hall, List.length_reverse]

/-- A character in front of a break is not behind the last one. -/
theorem column_cons_of_count_ne_zero (c : Char) {t : Text} (h : t.count '\n' ≠ 0) :
    column (c :: t) = column t := by
  have hmem : '\n' ∈ t := List.count_pos_iff.1 (Nat.pos_of_ne_zero h)
  rw [column, List.reverse_cons, List.takeWhile_append, if_neg, column]
  intro hlen
  have hself := (List.takeWhile_sublist fun c ↦ decide (c ≠ '\n')).eq_of_length hlen
  have hbreak := List.takeWhile_eq_self_iff.1 hself '\n' (List.mem_reverse.2 hmem)
  exact absurd hbreak (by simp)

/-- What stands in front of the last break has no part in the column. -/
theorem column_cons_break (t : Text) : column ('\n' :: t) = column t := by
  by_cases h : t.count '\n' = 0
  · rw [column_of_count_eq_zero h, column, List.reverse_cons, List.takeWhile_append_of_pos]
    · simp
    · intro c hc
      exact decide_eq_true fun heq ↦ List.count_eq_zero.1 h (heq ▸ List.mem_reverse.1 hc)
  · exact column_cons_of_count_ne_zero '\n' h

/-- A character in front of a text is counted in the column only if no break follows it. -/
theorem column_cons_of_ne {c : Char} (hc : c ≠ '\n') (t : Text) :
    column (c :: t) = if t.count '\n' = 0 then column t + 1 else column t := by
  by_cases h : t.count '\n' = 0
  · have hcons : (c :: t).count '\n' = 0 := by rwa [List.count_cons_of_ne hc]
    rw [if_pos h, column_of_count_eq_zero h, column_of_count_eq_zero hcons, List.length_cons]
  · rw [if_neg h, column_cons_of_count_ne_zero c h]

/-- The position of an offset in the text is read off the characters in front of it. -/
theorem positionAt_natCast {t : Text} {o : Nat} (ho : o ≤ t.length) :
    t.positionAt o = ⟨(t.take o).count '\n', column (t.take o)⟩ := by
  simp [positionAt, clamp, column, Nat.min_eq_left ho]

@[simp] theorem positionAt_zero (t : Text) : t.positionAt 0 = ⟨0, 0⟩ := by
  simpa using positionAt_natCast (Nat.zero_le t.length)

/-- Behind a break the position of an offset is the one in the rest, one line further down. -/
theorem positionAt_break_succ {t : Text} {o : Nat} (ho : o ≤ t.length) :
    positionAt ('\n' :: t) (o + 1 : Nat) =
      ⟨(t.positionAt o).line + 1, (t.positionAt o).character⟩ := by
  have hlen : o + 1 ≤ ('\n' :: t).length := Nat.succ_le_succ ho
  rw [positionAt_natCast hlen, positionAt_natCast ho, List.take_succ_cons, List.count_cons_self,
    column_cons_break]

/-- Behind any other character the position of an offset in the rest moves to the right on the first
line, and stays elsewhere. -/
theorem positionAt_cons_succ {c : Char} (hc : c ≠ '\n') {t : Text} {o : Nat} (ho : o ≤ t.length) :
    positionAt (c :: t) (o + 1 : Nat) =
      if (t.positionAt o).line = 0 then ⟨0, (t.positionAt o).character + 1⟩
      else t.positionAt o := by
  have hlen : o + 1 ≤ (c :: t).length := Nat.succ_le_succ ho
  rw [positionAt_natCast hlen, positionAt_natCast ho, List.take_succ_cons,
    List.count_cons_of_ne hc, column_cons_of_ne hc]
  by_cases h : (t.take o).count '\n' = 0
  · rw [if_pos h, if_pos h, h]
  · rw [if_neg h, if_neg h]

/-! ### There and back -/

/-- **An offset is found again from its position.** -/
theorem offsetAt?_positionAt {t : Text} {o : Nat} (ho : o ≤ t.length) :
    t.offsetAt? (t.positionAt o) = some o := by
  -- a break in front moves every position down, another character only those of the first line
  induction t generalizing o with
  | nil =>
    obtain rfl : o = 0 := Nat.le_zero.1 ho
    simp
  | cons c t ih =>
    by_cases hc : c = '\n'
    · subst hc
      cases o with
      | zero => simp
      | succ o =>
        have ho' : o ≤ t.length := Nat.le_of_succ_le_succ ho
        rw [positionAt_break_succ ho', offsetAt?_break_succ, ih ho']
        rfl
    · cases o with
      | zero => simpa using offsetAt?_cons_zero_zero hc t
      | succ o =>
        have ho' : o ≤ t.length := Nat.le_of_succ_le_succ ho
        rw [positionAt_cons_succ hc ho']
        -- whether the position is on the first line decides which equation applies
        obtain ⟨l, k, hpos⟩ : ∃ l k, positionAt t o = ⟨l, k⟩ := ⟨_, _, rfl⟩
        have ih := ih ho'
        rw [hpos] at ih ⊢
        cases l with
        | zero => rw [if_pos rfl, offsetAt?_cons_zero_succ hc, ih, Option.map_some]
        | succ l => rw [if_neg (Nat.succ_ne_zero l), offsetAt?_cons_succ hc, ih, Option.map_some]

/-- **A position is found again from its offset**, with its character cut to the line. -/
theorem positionAt_of_offsetAt? {t : Text} {p : Position} {o : Nat} (h : t.offsetAt? p = some o) :
    o ≤ t.length ∧ t.positionAt o = t.onLine p := by
  obtain ⟨l, k⟩ := p
  -- the bound goes along, because the equations for `positionAt` ask for it
  induction t generalizing l k o with
  | nil =>
    cases l with
    | zero =>
      obtain rfl : 0 = o := by simpa using h
      simp [onLine, lines]
    | succ l => simp at h
  | cons c t ih =>
    by_cases hc : c = '\n'
    · subst hc
      cases l with
      | zero =>
        obtain rfl : 0 = o := by simpa using h
        simp [onLine, lines_cons_break]
      | succ l =>
        rw [offsetAt?_break_succ] at h
        obtain ⟨o, ho, rfl⟩ := Option.map_eq_some_iff.1 h
        obtain ⟨hle, hpos⟩ := ih l k ho
        refine ⟨Nat.succ_le_succ hle, ?_⟩
        rw [positionAt_break_succ hle, hpos]
        simp [onLine, lines_cons_break]
    · obtain ⟨line, ls, hlines⟩ := exists_lines_eq_cons t
      cases l with
      | zero =>
        cases k with
        | zero =>
          rw [offsetAt?_cons_zero_zero hc] at h
          obtain rfl : 0 = o := by simpa using h
          simp [onLine]
        | succ k =>
          rw [offsetAt?_cons_zero_succ hc] at h
          obtain ⟨o, ho, rfl⟩ := Option.map_eq_some_iff.1 h
          obtain ⟨hle, hpos⟩ := ih 0 k ho
          refine ⟨Nat.succ_le_succ hle, ?_⟩
          rw [positionAt_cons_succ hc hle, hpos]
          simp [onLine, lines_cons_of_ne hc hlines, hlines]
      | succ l =>
        rw [offsetAt?_cons_succ hc] at h
        obtain ⟨o, ho, rfl⟩ := Option.map_eq_some_iff.1 h
        obtain ⟨hle, hpos⟩ := ih (l + 1) k ho
        refine ⟨Nat.succ_le_succ hle, ?_⟩
        rw [positionAt_cons_succ hc hle, hpos]
        simp [onLine, lines_cons_of_ne hc hlines, hlines]

/-! ### Line starts -/

/-- A break makes a line start right behind it. -/
theorem breaksFrom_cons_break (i : Nat) (t : Text) :
    breaksFrom i ('\n' :: t) = (i + 1) :: breaksFrom (i + 1) t := by
  simp [breaksFrom]

/-- No other character makes a line start. -/
theorem breaksFrom_cons_of_ne {c : Char} (hc : c ≠ '\n') (i : Nat) (t : Text) :
    breaksFrom i (c :: t) = breaksFrom (i + 1) t := by
  simp [breaksFrom, hc]

/-- Line starts behind an offset are greater than it. -/
theorem lt_of_mem_breaksFrom {i x : Nat} {t : Text} (h : x ∈ breaksFrom i t) : i < x := by
  induction t generalizing i with
  | nil => simp [breaksFrom] at h
  | cons c t ih =>
    by_cases hc : c = '\n'
    · subst hc
      rw [breaksFrom_cons_break] at h
      rcases List.mem_cons.1 h with rfl | h
      · exact Nat.lt_succ_self i
      · exact Nat.lt_of_succ_lt (ih h)
    · rw [breaksFrom_cons_of_ne hc] at h
      exact Nat.lt_of_succ_lt (ih h)

/-- None of the line starts behind an offset is at most that offset. -/
theorem countUpTo_breaksFrom_self (i : Nat) (t : Text) : countUpTo (breaksFrom i t) i = 0 := by
  rcases hb : breaksFrom i t with - | ⟨x, xs⟩
  · rfl
  · have hx : i < x := lt_of_mem_breaksFrom (t := t) (by rw [hb]; exact List.mem_cons_self)
    simp [countUpTo, hx]

/-- There are as many line starts as lines. -/
theorem length_lineStarts (t : Text) : t.lineStarts.length = t.lines.length := by
  rw [lineStarts, List.length_cons, length_breaksFrom, length_lines]

end Text

/-- Behind a line start that is not the last one before an offset, only the count of lines goes
up. -/
theorem Position.ofLineStarts_cons_cons {s s' x : Nat} (hs : s ≤ x) (hs' : s' ≤ x)
    (starts : List Nat) : Position.ofLineStarts (s :: s' :: starts) x =
      ⟨(Position.ofLineStarts (s' :: starts) x).line + 1,
        (Position.ofLineStarts (s' :: starts) x).character⟩ := by
  simp [Position.ofLineStarts, countUpTo, hs, hs']

namespace Text

/-- The line starts of a text that has some characters `s ... i` of its first line in front. -/
theorem ofLineStarts_breaksFrom {t : Text} {s i o : Nat} (hs : s ≤ i) (ho : o ≤ t.length) :
    Position.ofLineStarts (s :: breaksFrom i t) (i + o) =
      if (t.positionAt o).line = 0 then ⟨0, i - s + (t.positionAt o).character⟩
      else t.positionAt o := by
  -- until the first break `i` runs ahead of `s`; from there on the line begins at `i` itself
  induction t generalizing s i o with
  | nil =>
    obtain rfl : o = 0 := Nat.le_zero.1 ho
    simp [breaksFrom, Position.ofLineStarts, countUpTo, hs]
  | cons c t ih =>
    cases o with
    | zero =>
      have hcount : countUpTo (s :: breaksFrom i (c :: t)) i = 1 := by
        have hnone := countUpTo_breaksFrom_self i (c :: t)
        simpa [countUpTo, hs] using hnone
      simp [Position.ofLineStarts, hcount]
    | succ o =>
      have ho' : o ≤ t.length := Nat.le_of_succ_le_succ ho
      have hi : i + (o + 1) = i + 1 + o := by omega
      by_cases hc : c = '\n'
      · subst hc
        rw [breaksFrom_cons_break, hi,
          Position.ofLineStarts_cons_cons (by omega) (Nat.le_add_right _ _),
          ih (Nat.le_refl _) ho', positionAt_break_succ ho', if_neg (Nat.succ_ne_zero _)]
        split <;> rename_i hline
        · rw [hline]; simp
        · rfl
      · rw [breaksFrom_cons_of_ne hc, hi, ih (Nat.le_succ_of_le hs) ho',
          positionAt_cons_succ hc ho']
        split <;> rename_i hline
        · simp only [if_true, Position.mk.injEq, true_and]
          omega
        · rfl

/-- **Searching the line starts counts the breaks.** -/
theorem ofLineStarts_lineStarts {t : Text} {o : Nat} (ho : o ≤ t.length) :
    Position.ofLineStarts t.lineStarts o = t.positionAt o := by
  have h := ofLineStarts_breaksFrom (s := 0) (i := 0) (Nat.le_refl 0) ho
  rw [Nat.zero_add] at h
  rw [lineStarts, h]
  split <;> rename_i hline
  · rw [Nat.sub_zero, Nat.zero_add, ← hline]
  · rfl

/-! ### Offsets that may lie outside -/

/-- What is cut to a length is not greater. -/
theorem clamp_le (length : Nat) (o : Int) : clamp length o ≤ length := Nat.min_le_right _ _

/-- An offset in the text stays as it is when it is cut. -/
theorem clamp_natCast {length o : Nat} (ho : o ≤ length) : clamp length o = o := by
  rw [clamp, Int.toNat_natCast, Nat.min_eq_left ho]

/-- The position of an integer offset is that of the offset of the text that is nearest to it. -/
theorem positionAt_clamp (t : Text) (o : Int) :
    t.positionAt o = t.positionAt (clamp t.length o : Nat) := by
  rw [positionAt, positionAt, clamp_natCast (clamp_le t.length o)]

/-- **Both kinds of arithmetic cut an offset alike**, so that they agree at any integer. -/
theorem ofLineStarts_clamp (t : Text) (o : Int) :
    Position.ofLineStarts t.lineStarts (clamp t.length o) = t.positionAt o := by
  rw [ofLineStarts_lineStarts (clamp_le t.length o), ← positionAt_clamp]

/-! ### Line starts and lines -/

/-- A line start is the number of characters of the lines before it. -/
theorem getD_breaksFrom {t : Text} {i l : Nat} (hl : l < t.count '\n') :
    (breaksFrom i t).getD l 0 = i + lengthWithBreaks (t.lines.take (l + 1)) := by
  induction t generalizing i l with
  | nil => simp at hl
  | cons c t ih =>
    by_cases hc : c = '\n'
    · subst hc
      rw [breaksFrom_cons_break, lines_cons_break, List.take_succ_cons]
      cases l with
      | zero => simp [lengthWithBreaks]
      | succ l =>
        rw [List.count_cons_self] at hl
        rw [List.getD_cons_succ, ih (Nat.lt_of_succ_lt_succ hl), lengthWithBreaks]
        simp only [List.length_nil]
        omega
    · rw [List.count_cons_of_ne hc] at hl
      obtain ⟨line, ls, hlines⟩ := exists_lines_eq_cons t
      rw [breaksFrom_cons_of_ne hc, ih hl, lines_cons_of_ne hc hlines, hlines]
      simp only [List.take_succ_cons, lengthWithBreaks, List.length_cons]
      omega

/-- A line starts behind all lines in front of it and their breaks. -/
theorem getD_lineStarts {t : Text} {l : Nat} (hl : l < t.lines.length) :
    t.lineStarts.getD l 0 = lengthWithBreaks (t.lines.take l) := by
  cases l with
  | zero => rfl
  | succ l =>
    rw [length_lines] at hl
    rw [lineStarts, List.getD_cons_succ, getD_breaksFrom (Nat.lt_of_succ_lt_succ hl), Nat.zero_add]

/-- Lines in two lists are as long as those of both together. -/
theorem lengthWithBreaks_append (ls ls' : List Text) :
    lengthWithBreaks (ls ++ ls') = lengthWithBreaks ls + lengthWithBreaks ls' := by
  induction ls with
  | nil => simp [lengthWithBreaks]
  | cons l ls ih =>
    rw [List.cons_append, lengthWithBreaks, ih, lengthWithBreaks]
    omega

/-- All lines with a break each are one character longer than the text, which has no break at its
end. -/
theorem lengthWithBreaks_lines (t : Text) : lengthWithBreaks t.lines = t.length + 1 := by
  induction t with
  | nil => rfl
  | cons c t ih =>
    by_cases hc : c = '\n'
    · subst hc
      rw [lines_cons_break, lengthWithBreaks, ih, List.length_cons, List.length_nil]
      omega
    · obtain ⟨l, ls, h⟩ := exists_lines_eq_cons t
      rw [h, lengthWithBreaks] at ih
      rw [lines_cons_of_ne hc h, lengthWithBreaks, List.length_cons, List.length_cons]
      omega

/-- One line more adds its characters and its break. -/
theorem lengthWithBreaks_take_succ {ls : List Text} {i : Nat} {l : Text} (h : ls[i]? = some l) :
    lengthWithBreaks (ls.take (i + 1)) = lengthWithBreaks (ls.take i) + (l.length + 1) := by
  rw [List.take_add_one, h, lengthWithBreaks_append]
  rfl

end Text

end CellStitch
