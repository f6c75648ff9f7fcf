import CellStitch.Proofs.Span.Layout
import CellStitch.Span.OffsetMap
/-!
# Offsets through a layout

On the spans of a layout both offset maps have a result, which only depends on the pieces: the maps
of spans are those of the pieces (`Piece.toShown`, `Piece.toWritten`), moved to the place of the
layout.

On pieces the maps are recursions on the list. Going to the document and back leads to where one
started (`Piece.toWritten_toShown`), and going to the document keeps the order
(`Piece.toShown_mono`).
-/

namespace CellStitch

namespace Piece

/-- The offset in the shown text of an offset in the written text. At the end of a verbatim piece
the place before what follows wins. -/
def toShown : List Piece → Nat → Nat
  | [], _ => 0
  | verbatim t :: pieces, r => if r ≤ t.length then r else t.length + toShown pieces (r - t.length)
  | injected t :: pieces, r => t.length + toShown pieces r

/-- The offset in the written text of an offset in the shown text. What lies in an injected piece
goes to the place of that piece. -/
def toWritten : List Piece → Nat → Nat
  | [], _ => 0
  | verbatim t :: pieces, o =>
    if o < t.length then o else t.length + toWritten pieces (o - t.length)
  | injected t :: pieces, o => if o < t.length then 0 else toWritten pieces (o - t.length)

section Equations

variable {t : Text} (pieces : List Piece) {n : Nat}

theorem toShown_verbatim_of_le (h : n ≤ t.length) : toShown (verbatim t :: pieces) n = n :=
  if_pos h

theorem toShown_verbatim_of_lt (h : t.length < n) :
    toShown (verbatim t :: pieces) n = t.length + toShown pieces (n - t.length) :=
  if_neg (Nat.not_le_of_lt h)

theorem toShown_injected : toShown (injected t :: pieces) n = t.length + toShown pieces n := rfl

theorem toWritten_verbatim_of_lt (h : n < t.length) : toWritten (verbatim t :: pieces) n = n :=
  if_pos h

theorem toWritten_verbatim_of_le (h : t.length ≤ n) :
    toWritten (verbatim t :: pieces) n = t.length + toWritten pieces (n - t.length) :=
  if_neg (Nat.not_lt_of_le h)

theorem toWritten_injected_of_le (h : t.length ≤ n) :
    toWritten (injected t :: pieces) n = toWritten pieces (n - t.length) :=
  if_neg (Nat.not_lt_of_le h)

end Equations

/-! ### Bounds and order -/

/-- No offset of the cell is shown behind the end. -/
theorem toShown_le (pieces : List Piece) (r : Nat) : toShown pieces r ≤ (shown pieces).length := by
  induction pieces generalizing r with
  | nil => exact Nat.le_refl 0
  | cons p pieces ih =>
    rw [shown_cons, List.length_append]
    cases p with
    | verbatim t =>
      have := ih (r - t.length)
      simp only [toShown, text]
      split <;> omega
    | injected t => exact Nat.add_le_add_left (ih r) _

/-- A character of the cell has a character of the document in its place. -/
theorem toShown_lt {pieces : List Piece} {r : Nat} (hr : r < (written pieces).length) :
    toShown pieces r < (shown pieces).length := by
  induction pieces generalizing r with
  | nil => exact absurd hr (Nat.not_lt_zero r)
  | cons p pieces ih =>
    rw [shown_cons, List.length_append]
    cases p with
    | verbatim t =>
      have hle := length_written_le pieces
      rw [written_verbatim, List.length_append] at hr
      simp only [toShown, text]
      split
      · omega
      · have := ih (r := r - t.length) (by omega)
        omega
    | injected t => exact Nat.add_lt_add_left (ih hr) _

/-- Offsets of the cell are shown in their order. -/
theorem toShown_mono (pieces : List Piece) {r r' : Nat} (h : r ≤ r') :
    toShown pieces r ≤ toShown pieces r' := by
  induction pieces generalizing r r' with
  | nil => exact Nat.le_refl 0
  | cons p pieces ih =>
    cases p with
    | verbatim t =>
      have := ih (Nat.sub_le_sub_right h t.length)
      simp only [toShown]
      split <;> split <;> omega
    | injected t => exact Nat.add_le_add_left (ih h) _

/-- The start of the document is the start of the cell, whatever the pieces are. -/
theorem toWritten_zero (pieces : List Piece) : toWritten pieces 0 = 0 := by
  induction pieces with
  | nil => rfl
  | cons p pieces ih => cases p <;> simp [toWritten, ih]

/-- **There and back.** -/
theorem toWritten_toShown {pieces : List Piece} {r : Nat} (hr : r ≤ (written pieces).length) :
    toWritten pieces (toShown pieces r) = r := by
  induction pieces generalizing r with
  | nil => exact (Nat.le_zero.1 hr).symm
  | cons p pieces ih =>
    cases p with
    | verbatim t =>
      rw [written_verbatim, List.length_append] at hr
      rcases Nat.lt_trichotomy r t.length with hlt | rfl | hgt
      · rw [toShown_verbatim_of_le pieces (Nat.le_of_lt hlt), toWritten_verbatim_of_lt pieces hlt]
      · -- the end of the piece, from where the rest is entered at its start
        rw [toShown_verbatim_of_le pieces (Nat.le_refl _),
          toWritten_verbatim_of_le pieces (Nat.le_refl _), Nat.sub_self, toWritten_zero,
          Nat.add_zero]
      · rw [toShown_verbatim_of_lt pieces hgt,
          toWritten_verbatim_of_le pieces (Nat.le_add_right _ _), Nat.add_sub_cancel_left,
          ih (by omega)]
        omega
    | injected t =>
      rw [toShown_injected, toWritten_injected_of_le pieces (Nat.le_add_right _ _),
        Nat.add_sub_cancel_left]
      exact ih hr

end Piece

/-! ### The maps of spans -/

namespace Span

open Piece (shown written toShown toWritten)

variable (uri : String)

/-- The span that takes a cell offset, if there is one, gives it the place that the pieces give. -/
theorem find?_takes_place (pieces : List Piece) (offset : Int) {real x : Int} {r : Nat}
    (hx : x = real + r) :
    (∃ s, (place uri offset real pieces).find?
        (fun s ↦ s.verbatim && s.realStart ≤ x && x ≤ s.realStop) = some s ∧
      s.start + (x - s.realStart) = offset + toShown pieces r) ∨
    ((place uri offset real pieces).find?
        (fun s ↦ s.verbatim && s.realStart ≤ x && x ≤ s.realStop) = none ∧
      toShown pieces r = (shown pieces).length) := by
  induction pieces generalizing offset real r with
  | nil => exact .inr ⟨rfl, rfl⟩
  | cons p pieces ih =>
    cases p with
    | verbatim t =>
      simp only [place, List.find?_cons, toShown, Piece.shown_cons, Piece.text, List.length_append]
      by_cases hr : r ≤ t.length
      · have hin : (true && decide (real ≤ x) && decide (x ≤ real + t.length)) = true := by
          simp; omega
        rw [hin, if_pos hr]
        exact .inl ⟨_, rfl, by simp only; omega⟩
      · have hout : (true && decide (real ≤ x) && decide (x ≤ real + t.length)) = false := by
          simp; omega
        rw [hout, if_neg hr]
        -- the rest is asked for what is left of the offset
        have hx' : x = real + t.length + (r - t.length : Nat) := by omega
        rcases ih (offset + t.length) hx' with ⟨s, hs, hval⟩ | ⟨hnone, hlen⟩
        · exact .inl ⟨s, hs, by omega⟩
        · exact .inr ⟨hnone, by omega⟩
    | injected t =>
      simp only [place, List.find?_cons, toShown, Piece.shown_cons, Piece.text, List.length_append,
        Bool.false_and]
      rcases ih (offset + t.length) hx with ⟨s, hs, hval⟩ | ⟨hnone, hlen⟩
      · exact .inl ⟨s, hs, by omega⟩
      · exact .inr ⟨hnone, by omega⟩

/-- **The way to the document** of a layout is that of its pieces. -/
theorem toSynthetic_place {pieces : List Piece} (h : pieces ≠ []) (offset real : Int) (r : Nat) :
    toSynthetic (place uri offset real pieces) (real + r) =
      .ok (offset + toShown pieces r) := by
  unfold toSynthetic
  rcases find?_takes_place uri pieces offset (x := real + r) rfl with
    ⟨s, hs, hval⟩ | ⟨hnone, hlen⟩
  · rw [hs]
    exact congrArg _ hval
  · rw [hnone, hlen]
    obtain ⟨p, pieces, rfl⟩ := List.exists_cons_of_ne_nil h
    have hstop := stopOf_place uri offset real h
    rw [place_cons] at hstop ⊢
    have hfirst : ¬ real + (r : Int) < (p.placed uri offset real).realStart := by
      simp only [Piece.placed]; omega
    simp only [if_neg hfirst, hstop]

/-- The span that contains a document offset, if there is one, gives it the place that the pieces
give. -/
theorem find?_contains_place (pieces : List Piece) {offset : Int} (real : Int) {x : Int} {o : Nat}
    (hx : x = offset + o) :
    (∃ s, (place uri offset real pieces).find? (fun s ↦ s.contains x) = some s ∧
      (if s.verbatim then s.realStart + (x - s.start) else s.realStart) =
        real + toWritten pieces o) ∨
    ((place uri offset real pieces).find? (fun s ↦ s.contains x) = none ∧
      toWritten pieces o = (written pieces).length) := by
  induction pieces generalizing offset real o with
  | nil => exact .inr ⟨rfl, rfl⟩
  | cons p pieces ih =>
    -- a piece that ends before the offset is passed over
    have hout : ∀ n : Nat, ¬ o < n →
        (decide (offset ≤ x) && decide (x < offset + n)) = false ∧
          x = offset + n + (o - n : Nat) := by
      intro n hn
      constructor
      · simp; omega
      · omega
    cases p with
    | verbatim t =>
      simp only [place, List.find?_cons, contains, toWritten, Piece.written_verbatim,
        List.length_append]
      by_cases ho : o < t.length
      · have hin : (decide (offset ≤ x) && decide (x < offset + t.length)) = true := by
          simp; omega
        rw [hin, if_pos ho]
        exact .inl ⟨_, rfl, by simp only [if_true]; omega⟩
      · obtain ⟨hfalse, hx'⟩ := hout t.length ho
        rw [hfalse, if_neg ho]
        rcases ih (real + t.length) hx' with ⟨s, hs, hval⟩ | ⟨hnone, hlen⟩
        · exact .inl ⟨s, hs, by rw [hval]; omega⟩
        · exact .inr ⟨hnone, by omega⟩
    | injected t =>
      simp only [place, List.find?_cons, contains, toWritten, Piece.written_injected]
      by_cases ho : o < t.length
      · have hin : (decide (offset ≤ x) && decide (x < offset + t.length)) = true := by
          simp; omega
        rw [hin, if_pos ho]
        exact .inl ⟨_, rfl, by simp⟩
      · obtain ⟨hfalse, hx'⟩ := hout t.length ho
        rw [hfalse, if_neg ho]
        exact ih real hx'

/-- In the cell the last span stops where the text of the cell does. -/
theorem getLastD_realStop_place (offset real : Int) (pieces : List Piece) (first : Span)
    (h : pieces ≠ []) :
    ((place uri offset real pieces).getLastD first).realStop = real + (written pieces).length := by
  induction pieces generalizing offset real first with
  | nil => exact absurd rfl h
  | cons p pieces ih =>
    rw [place_cons, List.getLastD_cons]
    by_cases hp : pieces = []
    · subst hp
      cases p <;> simp [place, Piece.placed, Piece.advance]
    · rw [ih _ _ _ hp]
      cases p <;> simp only [Piece.advance, Piece.written_verbatim, Piece.written_injected,
        List.length_append] <;> omega

/-- **The way back** through a layout is that through its pieces. -/
theorem toReal_place {pieces : List Piece} (h : pieces ≠ []) (offset real : Int) (o : Nat) :
    toReal (place uri offset real pieces) (offset + o) = .ok (real + toWritten pieces o) := by
  unfold toReal
  rcases find?_contains_place uri pieces real (x := offset + o) rfl with
    ⟨s, hs, hval⟩ | ⟨hnone, hlen⟩
  · rw [hs]
    exact congrArg _ hval
  · rw [hnone, hlen]
    obtain ⟨p, pieces, rfl⟩ := List.exists_cons_of_ne_nil h
    have hlast := getLastD_realStop_place uri offset real (p :: pieces) (p.placed uri offset real) h
    rw [place_cons] at hlast ⊢
    have hfirst : ¬ offset + (o : Int) < (p.placed uri offset real).start := by
      simp only [Piece.placed]; omega
    simp only [if_neg hfirst, hlast]

end Span

end CellStitch
