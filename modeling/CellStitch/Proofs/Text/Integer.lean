import CellStitch.Text.Integer
import Mathlib.Data.List.TakeWhile
/-!
# Reading printed numbers

A number that is printed is read again (`Text.integer?_toString`), if it has no more digits than may
be read. Of all that a reader allows, a printed number makes use of the ASCII digits alone: there is
no white space around it to be passed over, no sign, and no underscore.
-/

namespace CellStitch.Text

variable {c : Char} {t : Text}

theorem toNat_of_isDigit (h : c.isDigit = true) : 0x30 ≤ c.toNat ∧ c.toNat ≤ 0x39 := by
  rwa [Char.isDigit, Bool.and_eq_true, decide_eq_true_iff, decide_eq_true_iff] at h

theorem digit?_of_isDigit (h : c.isDigit = true) : digit? c = some (c.toNat - 0x30) := by
  have hrange := toNat_of_isDigit h
  -- the ASCII digits come first among the digits of all scripts
  have hfirst : zeros.find? (fun z ↦ z ≤ c.toNat && c.toNat < z + 10) = some 0x30 := by
    rw [zeros, List.find?_cons_of_pos (by simp; omega)]
  rw [digit?, hfirst, Option.map_some]

theorem digits?_of_isDigit (hne : t ≠ []) (h : ∀ c ∈ t, c.isDigit = true) :
    digits? t = some (t.map fun c ↦ c.toNat - 0x30) := by
  induction t with
  | nil => exact absurd rfl hne
  | cons c t ih =>
    have hc := digit?_of_isDigit (h c List.mem_cons_self)
    have ht : ∀ x ∈ t, x.isDigit = true := fun x hx ↦ h x (List.mem_cons_of_mem c hx)
    rcases t with - | ⟨x, t⟩
    · rw [digits?, hc]
      rfl
    · have hx : x ≠ '_' := by
        rintro rfl
        exact absurd (ht '_' List.mem_cons_self) (by decide)
      rw [digits?, hc]
      simp only [if_neg hx, ih (List.cons_ne_nil x t) ht]
      rfl

theorem not_isPadding_of_isDigit (h : c.isDigit = true) : ¬ isPadding c = true := by
  have hrange := toNat_of_isDigit h
  simp [isPadding, CellStitch.isBlank]
  omega

/-- There is nothing around digits to be passed over. -/
theorem dropWhile_isPadding (h : ∀ c ∈ t, c.isDigit = true) : t.dropWhile isPadding = t := by
  rcases t with - | ⟨c, t⟩
  · rfl
  · exact List.dropWhile_cons_of_neg (not_isPadding_of_isDigit (h c List.mem_cons_self))

/-- Digits are read without a sign. -/
theorem integer?_of_isDigit (h : ∀ c ∈ t, c.isDigit = true) :
    integer? t = (size? t).map Int.ofNat := by
  have hreverse : ∀ c ∈ t.reverse, c.isDigit = true := fun c hc ↦ h c (List.mem_reverse.1 hc)
  rw [integer?, dropWhile_isPadding h, dropWhile_isPadding hreverse, List.reverse_reverse]
  split
  · exact absurd (h '+' List.mem_cons_self) (by decide)
  · exact absurd (h '-' List.mem_cons_self) (by decide)
  · rfl

/-- **A printed number is read again.** -/
theorem integer?_toString {n : Nat} (h : (Nat.toDigits 10 n).length ≤ maxDigits) :
    integer? (toString n).toList = some (n : Int) := by
  have hdigits : ∀ c ∈ Nat.toDigits 10 n, c.isDigit = true := fun c hc ↦
    Nat.isDigit_of_mem_toDigits (by decide) (by decide) hc
  have hsize : size? (Nat.toDigits 10 n) = some n := by
    have hvalue := Nat.ofDigitChars_ten_toDigits (n := n)
    rw [Nat.ofDigitChars_eq_foldl] at hvalue
    rw [size?, digits?_of_isDigit Nat.toDigits_ne_nil hdigits]
    show (if _ then some _ else none) = _
    rw [List.length_map, if_pos h, List.foldl_map]
    exact congrArg some hvalue
  rw [Nat.toString_eq_ofList_toDigits, String.toList_ofList, integer?_of_isDigit hdigits, hsize]
  rfl

end CellStitch.Text
