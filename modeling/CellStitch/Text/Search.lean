import CellStitch.Text.Lines
import CellStitch.Position
/-!
# Offsets and positions, by search

A third way from an offset to its position. Line starts are found one behind the other, each by a
search for the next break; the line of an offset is looked up among them by halves; and without line
starts the line begins behind the last break in front of the offset.

A position that is found so must be one that the wire carries (`Position.onWire?`), which is also
where a difference of offsets below 0 would show.
-/

namespace CellStitch

/-! ### By halves -/

/-- The place behind the last entry that is at most `x` in a list that increases, looked for from
the place `low` up to the place `high`. -/
def bisect {α : Type} [LT α] [DecidableLT α] (xs : List α) (x : α) (low high : Nat) : Nat :=
  if low < high then
    let middle := (low + high) / 2
    match xs[middle]? with
    | none => bisect xs x low middle
    | some a => if x < a then bisect xs x low middle else bisect xs x (middle + 1) high
  else low
termination_by high - low

/-- The position of an offset among line starts. -/
def Position.amongStarts? (starts : List Nat) (offset : Nat) : Option Position :=
  match bisect starts offset 0 starts.length with
  | 0 => none
  | line + 1 => starts[line]?.bind fun start ↦ ofInts? line (offset - start)

namespace Text

/-! ### Forwards -/

/-- The offset of the first occurrence of a character at or behind an offset. -/
def firstFrom? (t : Text) (c : Char) (i : Nat) : Option Nat := ((t.drop i).idxOf? c).map (i + ·)

theorem firstFrom?_eq_some_iff {t : Text} {c : Char} {i b : Nat} : t.firstFrom? c i = some b ↔
    ∃ part rest, t.drop i = part ++ c :: rest ∧ c ∉ part ∧ b = i + part.length := by
  rw [firstFrom?, Option.map_eq_some_iff]
  constructor
  · rintro ⟨k, hk, rfl⟩
    obtain ⟨hlt, hget, hnot⟩ := List.idxOf?_eq_some_iff.1 hk
    refine ⟨(t.drop i).take k, (t.drop i).drop (k + 1), ?_, ?_, ?_⟩
    · rw [← hget, ← List.drop_eq_getElem_cons hlt, List.take_append_drop]
    · intro hmem
      obtain ⟨j, hj, hc⟩ := List.mem_take_iff_getElem.1 hmem
      exact hnot j (by omega) hc
    · rw [List.length_take_of_le (Nat.le_of_lt hlt)]
  · rintro ⟨part, rest, hdrop, hnot, rfl⟩
    refine ⟨part.length, ?_, rfl⟩
    rw [List.idxOf?_eq_some_iff, hdrop]
    refine ⟨by simp, by simp, fun j hj hc ↦ hnot ?_⟩
    rw [List.getElem_append_left hj] at hc
    exact hc ▸ List.getElem_mem hj

theorem firstFrom?_eq_none_iff {t : Text} {c : Char} {i : Nat} :
    t.firstFrom? c i = none ↔ c ∉ t.drop i := by
  simp [firstFrom?]

/-- What is found lies in the text. -/
theorem le_and_lt_of_firstFrom? {t : Text} {c : Char} {i b : Nat} (h : t.firstFrom? c i = some b) :
    i ≤ b ∧ b < t.length := by
  obtain ⟨part, rest, hdrop, -, rfl⟩ := firstFrom?_eq_some_iff.1 h
  have hlength := congrArg List.length hdrop
  rw [List.length_drop, List.length_append, List.length_cons] at hlength
  omega

/-- The line starts behind an offset, each found behind the one before it. -/
def startsBehind (t : Text) (i : Nat) : List Nat :=
  match h : t.firstFrom? '\n' i with
  | none => []
  | some b => (b + 1) :: t.startsBehind (b + 1)
termination_by t.length - i
decreasing_by
  have hb := le_and_lt_of_firstFrom? h
  omega

/-- The line starts of a text, found one behind the other. -/
def searchedStarts (t : Text) : List Nat := 0 :: t.startsBehind 0

/-! ### Backwards -/

/-- The offset of the last occurrence of a character in front of an offset. -/
def lastBefore? (t : Text) (c : Char) : Nat → Option Nat
  | 0 => none
  | i + 1 => if t[i]? = some c then some i else t.lastBefore? c i

/-- Where the line of an offset begins. -/
def lineStartBefore (t : Text) (offset : Nat) : Nat :=
  match t.lastBefore? '\n' offset with
  | none => 0
  | some b => b + 1

/-- The position of an offset, which is first cut to the text: the number of the breaks in front of
it, and how far behind the last of them it is. -/
def positionBehindBreak? (t : Text) (offset : Int) : Option Position :=
  let o := clamp t.length offset
  Position.ofInts? ((t.take o).count '\n') (o - t.lineStartBefore o)

end Text

end CellStitch
