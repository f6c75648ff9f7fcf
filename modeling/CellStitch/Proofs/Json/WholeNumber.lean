import CellStitch.Json.Reader
/-!
# Whole numbers in a JSON text

Digits are read as the number they stand for, up to 4300 of them. With one digit more they are
refused, whatever stands behind them (`Json.takeValue_digits`).
-/

namespace CellStitch

namespace Numeral

variable {c d : Char} {ds : Text}

/-- A run of digits goes on to the first character that is none. -/
theorem runTail_append {ok : Char → Bool} (hds : ∀ d ∈ ds, ok d = true) (hc : ok c = false)
    (t : Text) : runTail false ok (ds ++ c :: t) = ds.length := by
  induction ds with
  | nil => cases t <;> simp [runTail, hc]
  | cons d ds ih =>
    have hd : ok d = true := hds d List.mem_cons_self
    have hrest := ih fun d' hd' ↦ hds d' (List.mem_cons_of_mem _ hd')
    cases ds <;> simp_all [runTail]

/-- A character that ends a whole number: what is in front of it is no part of a longer number, and
no part of a fraction. -/
structure EndsWhole (c : Char) : Prop where
  not_digit : c.isDigit = false
  not_point : c ≠ '.'
  not_exponent : c ≠ 'e' ∧ c ≠ 'E'

theorem scan_digits (hd : d.isDigit = true) (hzero : d ≠ '0') (hds : ∀ d ∈ ds, d.isDigit = true)
    (hc : EndsWhole c) (t : Text) :
    scan ⟨false, false⟩ (d :: (ds ++ c :: t)) =
      some (⟨false, d :: ds, [], none⟩, ds.length + 1) := by
  have hminus : d ≠ '-' := by
    rintro rfl
    cases hd
  have hsign : signLength false (d :: (ds ++ c :: t)) = 0 := by
    simp only [signLength]
    split <;> simp_all
  have hwhole : wholeLength false (d :: (ds ++ c :: t)) = ds.length + 1 := by
    simp [wholeLength, hzero, runLength, hd, runTail_append hds hc.not_digit]
  have hbehind : List.drop (ds.length + 1) (d :: (ds ++ c :: t)) = c :: t := by simp
  have hfraction : fractionLength false (c :: t) = 0 := by simp [fractionLength, hc.not_point]
  have hexponent : exponentLength false (c :: t) = 0 := by simp [exponentLength, hc.not_exponent]
  simp [scan, hsign, hwhole, hbehind, hfraction, hexponent, hminus]

theorem toValue?_digits (hds : ∀ d ∈ ds, d.isDigit = true) :
    toValue? ⟨false, ds, [], none⟩ =
      if maxDigits < ds.length then none else some (.int (valueOf 10 ds)) := by
  have hfilter : ds.filter (· ≠ '_') = ds := by
    refine List.filter_eq_self.2 fun c hc ↦ decide_eq_true ?_
    rintro rfl
    cases hds _ hc
  rw [toValue?, if_pos (by rfl)]
  simp only [hfilter]
  rfl

end Numeral

namespace Json

open Numeral

variable {c d : Char} {ds : Text}

/-- No word begins with a digit. -/
theorem find?_words_eq_none (hd : d.isDigit = true) (t : Text) :
    (words.find? fun w ↦ w.1.isPrefixOf (d :: t)) = none := by
  have hheads : ∀ w ∈ words, (w.1.headD '0').isDigit = false := by decide +kernel
  rw [List.find?_eq_none]
  intro w hw hfront
  have hhead := hheads w hw
  rcases hword : w.1 with - | ⟨c, rest⟩
  · rw [hword] at hhead
    cases hhead
  · rw [hword, List.isPrefixOf_iff_prefix, List.cons_prefix_cons] at hfront
    rw [hword, List.headD_cons, hfront.1, hd] at hhead
    cases hhead

section Digits

variable (hd : d.isDigit = true) (hzero : d ≠ '0') (hds : ∀ d ∈ ds, d.isDigit = true)
  (hc : EndsWhole c)
include hd hzero hds hc

theorem scalar_digits (t : Text) : scalar (d :: (ds ++ c :: t)) =
    if maxDigits < ds.length + 1 then .error .numberTooLong
    else .ok (.int (valueOf 10 (d :: ds)), ds.length + 1) := by
  have hall : ∀ d' ∈ d :: ds, d'.isDigit = true := List.forall_mem_cons.2 ⟨hd, hds⟩
  rw [scalar, find?_words_eq_none hd]
  simp only [scan_digits hd hzero hds hc t, toValue?_digits hall, List.length_cons]
  by_cases hlong : maxDigits < ds.length + 1
  · simp only [if_pos hlong]
  · simp only [if_neg hlong]

/-- **Digits are read as a whole number**, and refused if there are too many. -/
theorem takeValue_digits (lone : Option Char) (t : Text) :
    takeValue lone (d :: (ds ++ c :: t)) =
    if maxDigits < ds.length + 1 then .error .numberTooLong
    else .ok ⟨.int (valueOf 10 (d :: ds)), c :: t,
      by simp only [List.length_cons, List.length_append]; omega⟩ := by
  have hscalar : takeValue lone (d :: (ds ++ c :: t)) = takeScalar (d :: (ds ++ c :: t)) := by
    rw [takeValue] <;> rintro t ⟨⟩ <;> cases hd
  rw [hscalar, takeScalar, scalar_digits hd hzero hds hc]
  by_cases hlong : maxDigits < ds.length + 1
  · rw [if_pos hlong, if_pos hlong]
    rfl
  · rw [if_neg hlong, if_neg hlong]
    have hbehind : List.drop (ds.length + 1) (d :: (ds ++ c :: t)) = c :: t := by simp
    simp only [bind, Except.bind, Taken.ofLength?]
    simp [hbehind, pure, Except.pure]

end Digits

end Json

end CellStitch
