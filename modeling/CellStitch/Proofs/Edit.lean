import CellStitch.Edit
import CellStitch.Proofs.Text.Positions
/-!
# Carrying edits out

An edit whose range was made from two offsets of a text replaces what stands between them
(`Edit.applyTo_ranged_positionAt`).

A replacement that leads from one text to another keeps the characters in front of it and behind
it, so the two texts share these (`Edit.SharedEnds.of_splice`). Any ends that two texts share can be
kept so (`Edit.SharedEnds.splice_eq`). The edit between them keeps what they have in common in front
and, behind that, at their ends. Two texts may share other ends than these, but none that are longer
together (`Edit.SharedEnds.add_le`), which makes the edit the smallest one
(`Edit.between_smallest`).
-/

namespace CellStitch

namespace Text

/-- What is replaced in the middle part of a text is replaced in the text. -/
theorem splice_append_append (front mid back new : Text) {a b : Nat} (hab : a ≤ b)
    (hb : b ≤ mid.length) :
    splice (front ++ mid ++ back) (front.length + a) (front.length + b) new =
      front ++ splice mid a b new ++ back := by
  simp only [splice, List.append_assoc, List.take_length_add_append, List.drop_length_add_append]
  rw [List.take_append_of_le_length (Nat.le_trans hab hb), List.drop_append_of_le_length hb]

/-- Replacing the middle part as a whole. -/
theorem splice_append_append_self (front mid back new : Text) :
    splice (front ++ mid ++ back) front.length (front.length + mid.length) new =
      front ++ new ++ back := by
  rw [← Nat.add_zero front.length, Nat.add_assoc, Nat.zero_add,
    splice_append_append front mid back new (Nat.zero_le _) (Nat.le_refl _)]
  simp [splice]

end Text

namespace Edit

/-- **An edit between the positions of two offsets replaces what stands between the offsets.** -/
theorem applyTo_ranged_positionAt {t : Text} {a b : Nat} (hab : a ≤ b) (hb : b ≤ t.length)
    (new : Text) :
    applyTo t (.ranged ⟨t.positionAt a, t.positionAt b⟩ new) = some (t.splice a b new) := by
  simp [applyTo, Text.offsetAt?_positionAt hb, Text.offsetAt?_positionAt (Nat.le_trans hab hb), hab]

/-! ### What two texts share -/

/-- What two texts have in common in front fits into both of them. -/
theorem commonFront_le (s t : Text) : commonFront s t ≤ s.length ∧ commonFront s t ≤ t.length := by
  induction s generalizing t with
  | nil => exact ⟨Nat.zero_le _, Nat.zero_le _⟩
  | cons a s ih =>
    cases t with
    | nil => exact ⟨Nat.zero_le _, Nat.zero_le _⟩
    | cons b t =>
      obtain ⟨hs, ht⟩ := ih t
      unfold commonFront
      split
      · exact ⟨Nat.succ_le_succ hs, Nat.succ_le_succ ht⟩
      · exact ⟨Nat.zero_le _, Nat.zero_le _⟩

/-- Two texts agree up to the end of what they have in common in front. -/
theorem take_commonFront (s t : Text) : s.take (commonFront s t) = t.take (commonFront s t) := by
  induction s generalizing t with
  | nil => simp [commonFront]
  | cons a s ih =>
    cases t with
    | nil => rfl
    | cons b t =>
      unfold commonFront
      split
      · rename_i hab
        rw [hab, List.take_succ_cons, List.take_succ_cons, ih]
      · rfl

/-- Two texts agree in what they have in common at their ends. -/
theorem drop_commonFront_reverse (s t : Text) :
    s.drop (s.length - commonFront s.reverse t.reverse) =
      t.drop (t.length - commonFront s.reverse t.reverse) := by
  have h := take_commonFront s.reverse t.reverse
  rw [List.take_reverse, List.take_reverse] at h
  exact List.reverse_inj.1 h

/-- Texts that begin with the same characters have these in common in front. -/
theorem le_commonFront {s t : Text} {n : Nat} (hs : n ≤ s.length) (ht : n ≤ t.length)
    (h : s.take n = t.take n) : n ≤ commonFront s t := by
  induction n generalizing s t with
  | zero => exact Nat.zero_le _
  | succ n ih =>
    obtain ⟨a, s, rfl⟩ := List.exists_cons_of_length_pos (Nat.lt_of_lt_of_le n.succ_pos hs)
    obtain ⟨b, t, rfl⟩ := List.exists_cons_of_length_pos (Nat.lt_of_lt_of_le n.succ_pos ht)
    rw [List.take_succ_cons, List.take_succ_cons] at h
    obtain ⟨rfl, htail⟩ := List.cons.inj h
    rw [commonFront, if_pos rfl]
    exact Nat.succ_le_succ (ih (Nat.le_of_succ_le_succ hs) (Nat.le_of_succ_le_succ ht) htail)

/-- The number of characters that two texts have in common at their ends, behind what they have in
common in front. -/
def commonBack (old new : Text) : Nat :=
  commonFront (old.drop (commonFront old new)).reverse (new.drop (commonFront old new)).reverse

theorem commonBack_le (old new : Text) :
    commonBack old new ≤ old.length - commonFront old new ∧
      commonBack old new ≤ new.length - commonFront old new := by
  simpa [commonBack] using commonFront_le (old.drop (commonFront old new)).reverse
    (new.drop (commonFront old new)).reverse

theorem drop_commonBack (old new : Text) :
    old.drop (old.length - commonBack old new) = new.drop (new.length - commonBack old new) := by
  obtain ⟨hold, hnew⟩ := commonFront_le old new
  obtain ⟨hbold, hbnew⟩ := commonBack_le old new
  have hrev := drop_commonFront_reverse (old.drop (commonFront old new))
    (new.drop (commonFront old new))
  rw [← commonBack, List.length_drop, List.length_drop, List.drop_drop, List.drop_drop] at hrev
  convert hrev using 2 <;> omega

/-- Two texts begin with the same `front` characters and end with the same `back` ones, and in
neither of them the two parts overlap. -/
structure SharedEnds (old new : Text) (front back : Nat) : Prop where
  le_old : front + back ≤ old.length
  le_new : front + back ≤ new.length
  take_eq : old.take front = new.take front
  drop_eq : old.drop (old.length - back) = new.drop (new.length - back)

namespace SharedEnds

variable {old new : Text} {front back : Nat}

/-- The edit that keeps shared ends leads from the one text to the other. -/
theorem splice_eq (h : SharedEnds old new front back) :
    old.splice front (old.length - back) ((new.drop front).take (new.length - back - front)) =
      new := by
  have hle := h.le_new
  have hback : new.drop (new.length - back) =
      (new.drop front).drop (new.length - back - front) := by
    rw [List.drop_drop]
    congr 1
    omega
  rw [Text.splice, h.take_eq, h.drop_eq, hback, List.append_assoc, List.take_append_drop,
    List.take_append_drop]

/-- Fewer characters at the end are shared too. -/
theorem drop_eq_of_le (h : SharedEnds old new front back) {n : Nat} (hn : n ≤ back) :
    old.drop (old.length - n) = new.drop (new.length - n) := by
  have hold := h.le_old
  have hnew := h.le_new
  have hdrop := congrArg (List.drop (back - n)) h.drop_eq
  rw [List.drop_drop, List.drop_drop] at hdrop
  convert hdrop using 2 <;> omega

/-- The longest common front and the longest common back of what is left share no character. -/
theorem common (old new : Text) :
    SharedEnds old new (commonFront old new) (commonBack old new) := by
  obtain ⟨hold, hnew⟩ := commonFront_le old new
  obtain ⟨hbold, hbnew⟩ := commonBack_le old new
  exact ⟨by omega, by omega, take_commonFront old new, drop_commonBack old new⟩

/-- As much of a shared end as stands in both texts behind what they have in common in front. -/
theorem le_commonBack (h : SharedEnds old new front back) {n : Nat} (hn : n ≤ back)
    (hold : n ≤ old.length - commonFront old new) (hnew : n ≤ new.length - commonFront old new) :
    n ≤ commonBack old new := by
  obtain ⟨hfold, hfnew⟩ := commonFront_le old new
  refine le_commonFront (by simpa using hold) (by simpa using hnew) ?_
  rw [List.take_reverse, List.take_reverse, List.length_drop, List.length_drop, List.drop_drop,
    List.drop_drop]
  congr 1
  convert h.drop_eq_of_le hn using 2 <;> omega

/-- **No shared ends are longer together** than what two texts have in common in front and, behind
that, at their ends. -/
theorem add_le (h : SharedEnds old new front back) :
    front + back ≤ commonFront old new + commonBack old new := by
  have hold := h.le_old
  have hnew := h.le_new
  have hfront : front ≤ commonFront old new := le_commonFront (by omega) (by omega) h.take_eq
  obtain ⟨hfold, hfnew⟩ := commonFront_le old new
  rcases Nat.le_total (commonFront old new + back) (min old.length new.length) with hfits | hfits
  · have hback : back ≤ commonBack old new := h.le_commonBack (Nat.le_refl _) (by omega) (by omega)
    omega
  · -- then the common front and the shared end leave nothing of the shorter text
    have hback : min old.length new.length - commonFront old new ≤ commonBack old new :=
      h.le_commonBack (by omega) (by omega) (by omega)
    omega

/-- **A replacement keeps shared ends.** Offsets behind the end of the text count as its end. -/
theorem of_splice {a b : Nat} {x : Text} (hab : a ≤ b) (h : old.splice a b x = new) :
    SharedEnds old new (min a old.length) (old.length - b) ∧
      new.length = min a old.length + x.length + (old.length - b) := by
  have htake : (old.take a).length = min a old.length := List.length_take
  have hlength : new.length = min a old.length + x.length + (old.length - b) := by
    rw [← h, Text.splice, List.length_append, List.length_append, htake, List.length_drop]
  refine ⟨⟨by omega, by omega, ?_, ?_⟩, hlength⟩
  · rw [← h, Text.splice, List.append_assoc, List.take_left' htake, ← List.take_take,
      List.take_length]
  · have hrest : new.length - (old.length - b) = (old.take a ++ x).length := by
      rw [List.length_append]
      omega
    rw [hrest, ← h, Text.splice, List.drop_left]
    rcases Nat.le_total b old.length with hb | hb
    · rw [Nat.sub_sub_self hb]
    · rw [List.drop_of_length_le hb, List.drop_of_length_le (by omega)]

end SharedEnds

/-! ### The smallest edit -/

theorem between_eq_none_iff {old new : Text} : between old new = none ↔ old = new := by
  rw [between]
  split <;> simp [*]

/-- Between two texts the edit replaces what they do not have in common. -/
theorem between_eq {old new : Text} (h : old ≠ new) :
    between old new = some (.ranged
      ⟨old.positionAt (commonFront old new), old.positionAt (old.length - commonBack old new : Nat)⟩
      ((new.drop (commonFront old new)).take
        (new.length - commonBack old new - commonFront old new))) := by
  rw [← Text.ofLineStarts_lineStarts (commonFront_le old new).1,
    ← Text.ofLineStarts_lineStarts (Nat.sub_le _ _), between, if_neg h]
  rfl

/-- **The edit between two texts leads from the one to the other.** -/
theorem applyTo_of_between {old new : Text} {e : Edit} (h : between old new = some e) :
    e.applyTo old = some new := by
  have hne : old ≠ new := by
    intro heq
    rw [between_eq_none_iff.2 heq] at h
    cases h
  have hcommon := SharedEnds.common old new
  have hold := hcommon.le_old
  obtain rfl := Option.some.inj ((between_eq hne).symm.trans h)
  rw [applyTo_ranged_positionAt (by omega) (Nat.sub_le _ _), hcommon.splice_eq]

/-- **The edit between two texts is the smallest.** There is none only if they are equal. Otherwise
its range, read in the old text, holds what it replaces on the way to the new one, and no
replacement that leads there takes out fewer characters or puts in fewer. -/
theorem between_smallest (old new : Text) :
    (between old new = none ↔ old = new) ∧
      (old ≠ new → ∃ range text start stop, between old new = some (.ranged range text) ∧
        old.offsetAt? range.start = some start ∧ old.offsetAt? range.stop = some stop ∧
        start ≤ stop ∧ old.splice start stop text = new ∧
        ∀ a b x, a ≤ b → old.splice a b x = new →
          stop - start ≤ b - a ∧ text.length ≤ x.length) := by
  refine ⟨between_eq_none_iff, fun hne ↦ ?_⟩
  have hcommon := SharedEnds.common old new
  have hold := hcommon.le_old
  have hnew := hcommon.le_new
  refine ⟨_, _, commonFront old new, old.length - commonBack old new, between_eq hne,
    Text.offsetAt?_positionAt (by omega), Text.offsetAt?_positionAt (Nat.sub_le _ _), by omega,
    hcommon.splice_eq, ?_⟩
  intro a b x hab hx
  obtain ⟨hshared, hlength⟩ := SharedEnds.of_splice hab hx
  have hle := hshared.add_le
  rw [List.length_take, List.length_drop]
  constructor <;> omega

/-- A line that stands there three times is taken out once. What is left is common in front as a
whole, so that nothing is kept behind the edit. -/
theorem between_smallest_repeated :
    between "x\nx\nx\n".toList "x\nx\n".toList = some (.ranged ⟨⟨2, 0⟩, ⟨3, 0⟩⟩ []) ∧
      ∀ a b x, a ≤ b → Text.splice "x\nx\nx\n".toList a b x = "x\nx\n".toList → 2 ≤ b - a := by
  have hbetween : between "x\nx\nx\n".toList "x\nx\n".toList =
      some (.ranged ⟨⟨2, 0⟩, ⟨3, 0⟩⟩ []) := by decide
  obtain ⟨range, text, start, stop, hsome, hstart, hstop, -, -, hleast⟩ :=
    (between_smallest "x\nx\nx\n".toList "x\nx\n".toList).2 (by decide)
  obtain ⟨rfl, rfl⟩ := Edit.ranged.inj (Option.some.inj (hsome.symm.trans hbetween))
  obtain rfl : 4 = start := Option.some.inj hstart
  obtain rfl : 6 = stop := Option.some.inj hstop
  exact ⟨hbetween, fun a b x hab hx ↦ (hleast a b x hab hx).1⟩

end Edit

end CellStitch
