import CellStitch.Text.LineStarts
import CellStitch.Text.Search
/-!
# Counting and searching by halves

`countUpTo` counts the entries at the front of a list that are at most `x`. In a list that increases
these are all such entries, so that an entry tells by itself on which side of the count it stands
(`lt_iff_countUpTo_le`). A search by halves looks at such entries only, and ends at the count
(`bisect_eq_countUpTo`).
-/

namespace CellStitch

variable {α : Type} [LE α] [DecidableLE α] {xs ys : List α} {x a : α} {i k : Nat}

/-! ### Counting -/

theorem countUpTo_cons (y : α) (xs : List α) (x : α) :
    countUpTo (y :: xs) x = if y ≤ x then countUpTo xs x + 1 else 0 := by
  rw [countUpTo, List.takeWhile_cons]
  by_cases h : y ≤ x <;> simp [h, countUpTo]

theorem countUpTo_le (xs : List α) (x : α) : countUpTo xs x ≤ xs.length :=
  (List.takeWhile_prefix _).length_le

/-- What is counted is small enough. -/
theorem le_of_lt_countUpTo (hk : k < countUpTo xs x) (ha : xs[k]? = some a) : a ≤ x := by
  induction xs generalizing k with
  | nil => cases ha
  | cons y xs ih =>
    rw [countUpTo_cons] at hk
    split at hk
    · rcases k with - | k
      · obtain rfl : y = a := by simpa using ha
        assumption
      · exact ih (Nat.lt_of_succ_lt_succ hk) (by simpa using ha)
    · exact absurd hk (Nat.not_lt_zero k)

variable [LT α] [Std.IsLinearOrder α] [Std.LawfulOrderLT α]

/-- The first one that is not counted is too large. -/
theorem lt_of_countUpTo_eq (hk : countUpTo xs x = k) (ha : xs[k]? = some a) : x < a := by
  induction xs generalizing k with
  | nil => cases ha
  | cons y xs ih =>
    rw [countUpTo_cons] at hk
    split at hk
    · subst hk
      exact ih rfl (by simpa using ha)
    · subst hk
      obtain rfl : y = a := by simpa using ha
      exact Std.not_le.1 ‹_›

/-- Counting stops at the first entry that is too large. -/
theorem countUpTo_append (hxs : ∀ a ∈ xs, a ≤ x) (hys : ∀ a ∈ ys, x < a) :
    countUpTo (xs ++ ys) x = xs.length := by
  have hnone : ys.takeWhile (· ≤ x) = [] := by
    cases ys with
    | nil => rfl
    | cons y ys =>
      have hy : ¬ y ≤ x := Std.not_le.2 (hys y List.mem_cons_self)
      exact List.takeWhile_cons_of_neg (by simpa using hy)
  rw [countUpTo, List.takeWhile_append_of_pos (by simpa using hxs), hnone, List.append_nil]

/-! ### Lists that increase -/

/-- In a list that increases, an entry is too large exactly if it is not counted. -/
theorem lt_iff_countUpTo_le (hxs : xs.Pairwise (· ≤ ·)) (ha : xs[i]? = some a) :
    x < a ↔ countUpTo xs x ≤ i := by
  constructor
  · intro hlt
    refine Nat.le_of_not_lt fun hi ↦ ?_
    exact Std.not_le.2 hlt (le_of_lt_countUpTo hi ha)
  · intro hle
    obtain ⟨hi, rfl⟩ := List.getElem?_eq_some_iff.1 ha
    -- the first one that is not counted is too large, and `a` is no smaller
    have hfirst := lt_of_countUpTo_eq rfl (List.getElem?_eq_getElem (Nat.lt_of_le_of_lt hle hi))
    rcases Nat.lt_or_eq_of_le hle with hlt | heq
    · exact Std.lt_of_lt_of_le hfirst (List.pairwise_iff_getElem.1 hxs _ _ _ hi hlt)
    · simpa only [heq] using hfirst

variable [DecidableLT α]

/-- **A search by halves ends at the count**, if it starts with the count between its bounds. -/
theorem bisect_eq_countUpTo (hxs : xs.Pairwise (· ≤ ·)) {low high : Nat}
    (hlow : low ≤ countUpTo xs x) (hhigh : countUpTo xs x ≤ high) :
    bisect xs x low high = countUpTo xs x := by
  fun_induction bisect xs x low high with
  | case1 low high hlt middle hnone ih =>
    have hle := countUpTo_le xs x
    have hbehind := List.getElem?_eq_none_iff.1 hnone
    exact ih hlow (Nat.le_trans hle hbehind)
  | case2 low high hlt middle a ha hxa ih => exact ih hlow ((lt_iff_countUpTo_le hxs ha).1 hxa)
  | case3 low high hlt middle a ha hxa ih =>
    exact ih (Nat.lt_of_not_le (mt (lt_iff_countUpTo_le hxs ha).2 hxa)) hhigh
  | case4 low high hge => omega

theorem bisect_zero_length (hxs : xs.Pairwise (· ≤ ·)) (x : α) :
    bisect xs x 0 xs.length = countUpTo xs x :=
  bisect_eq_countUpTo hxs (Nat.zero_le _) (countUpTo_le xs x)

end CellStitch
