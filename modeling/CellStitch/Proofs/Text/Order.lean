import CellStitch.Proofs.Text.Positions
/-!
# Positions in order

Offsets of a text stand in the order of their positions (`Text.positionAt_le_iff`), and the position
of an offset is one that the text has: its line exists, and its character is not behind the end of
the line (`Text.hasPosition_positionAt`).
-/

namespace CellStitch

namespace Position

theorem zero_le (p : Position) : (⟨0, 0⟩ : Position) ≤ p := by
  rw [le_iff]
  rcases Nat.eq_zero_or_pos p.line with h | h
  · exact .inr ⟨h.symm, Nat.zero_le _⟩
  · exact .inl h

theorem le_antisymm {p q : Position} (h : p ≤ q) (h' : q ≤ p) : p = q := by
  obtain ⟨l, k⟩ := p
  obtain ⟨l', k'⟩ := q
  simp only [le_iff] at h h'
  simp only [mk.injEq]
  omega

end Position

namespace Text

/-- A text has a position if it has its line, and the character is not behind the end of it. -/
def HasPosition (t : Text) (p : Position) : Prop :=
  ∃ line, t.lines[p.line]? = some line ∧ p.character ≤ line.length

/-- A position that a text has is not changed by a cut to its line. -/
theorem onLine_eq_self {t : Text} {p : Position} (h : t.HasPosition p) : t.onLine p = p := by
  obtain ⟨line, hline, hle⟩ := h
  rw [onLine, List.getD_eq_getElem?_getD, hline, Option.getD_some, Nat.min_eq_left hle]

/-- The position of an offset is a position of the text. -/
theorem hasPosition_positionAt {t : Text} {o : Nat} (ho : o ≤ t.length) :
    t.HasPosition (t.positionAt o) := by
  have hoffset := offsetAt?_positionAt ho
  have hlt := lt_of_offsetAt?_eq_some hoffset
  have hcut := congrArg Position.character (positionAt_of_offsetAt? hoffset).2
  refine ⟨_, List.getElem?_eq_getElem hlt, ?_⟩
  rw [onLine, List.getD_eq_getElem?_getD, List.getElem?_eq_getElem hlt, Option.getD_some] at hcut
  rw [hcut]
  exact Nat.min_le_right _ _

theorem positionAt_mono {t : Text} {a b : Nat} (hab : a ≤ b) (hb : b ≤ t.length) :
    t.positionAt a ≤ t.positionAt b := by
  induction t generalizing a b with
  | nil =>
    obtain rfl : b = 0 := Nat.le_zero.1 hb
    obtain rfl : a = 0 := Nat.le_zero.1 hab
    exact Position.zero_le _
  | cons c t ih =>
    rcases a with - | a
    · rw [Int.natCast_zero, positionAt_zero]
      exact Position.zero_le _
    · obtain ⟨b, rfl⟩ : ∃ b', b = b' + 1 := Nat.exists_eq_add_one_of_ne_zero (by omega)
      have hb' : b ≤ t.length := Nat.le_of_succ_le_succ hb
      have hab' : a ≤ b := Nat.le_of_succ_le_succ hab
      have hle := Position.le_iff.1 (ih hab' hb')
      rw [Position.le_iff]
      by_cases hc : c = '\n'
      · subst hc
        rw [positionAt_break_succ hb', positionAt_break_succ (Nat.le_trans hab' hb')]
        dsimp only
        omega
      · rw [positionAt_cons_succ hc hb', positionAt_cons_succ hc (Nat.le_trans hab' hb')]
        -- a character in front moves the positions of the first line only
        split <;> split <;> grind

/-- **Offsets stand in the order of their positions.** -/
theorem positionAt_le_iff {t : Text} {a b : Nat} (ha : a ≤ t.length) (hb : b ≤ t.length) :
    t.positionAt a ≤ t.positionAt b ↔ a ≤ b := by
  refine ⟨fun h ↦ ?_, fun hab ↦ positionAt_mono hab hb⟩
  by_contra hlt
  have heq := Position.le_antisymm h (positionAt_mono (Nat.le_of_not_le hlt) ha)
  have hsame := offsetAt?_positionAt ha
  rw [heq, offsetAt?_positionAt hb] at hsame
  exact hlt (Nat.le_of_eq (Option.some.inj hsame).symm)

/-! ### Offsets that may lie outside -/

/-- The position of any integer is one of the text. -/
theorem hasPosition_positionAt_int (t : Text) (o : Int) : t.HasPosition (t.positionAt o) := by
  rw [positionAt_clamp]
  exact hasPosition_positionAt (clamp_le _ o)

theorem positionAt_mono_int (t : Text) {a b : Int} (h : a ≤ b) :
    t.positionAt a ≤ t.positionAt b := by
  rw [positionAt_clamp t a, positionAt_clamp t b]
  refine positionAt_mono ?_ (clamp_le _ b)
  have htoNat : a.toNat ≤ b.toNat := Int.toNat_le_toNat h
  simp only [clamp]
  omega

end Text

end CellStitch
