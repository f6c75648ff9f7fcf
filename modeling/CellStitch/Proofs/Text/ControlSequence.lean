import CellStitch.Text.ControlSequence
import Mathlib.Data.List.Infix
import Mathlib.Data.List.TakeWhile
/-!
# What is lost with control sequences

A text is written as it is exactly if no control sequence stands in it
(`Text.withoutControlSequences_eq_self_iff`). Where one stands is said without regard to how it is
looked for (`Text.HasControlSequence`). This comes to the same because parameters, intermediate
characters and final ones are different characters, so that there is only one way to read what
stands behind a bracket (`Text.isSome_afterSequence?_iff`).
-/

namespace CellStitch

theorem Ending.isSome_takeIf?_iff {s : Text} {p : Char → Bool} {x : Ending s} :
    (x.takeIf? p).isSome ↔ ∃ c rest, x.text = c :: rest ∧ p c = true := by
  unfold takeIf?
  split <;> rename_i hx
  · simp [hx]
  · split <;> simp_all

namespace Text

/-- A control sequence, and nothing else. -/
def IsControlSequence (s : Text) : Prop :=
  ∃ parameters intermediates final,
    s = escapeChar :: '[' :: (parameters ++ (intermediates ++ [final])) ∧
      (∀ c ∈ parameters, isParameter c = true) ∧
      (∀ c ∈ intermediates, isIntermediate c = true) ∧ isFinal final = true

/-- A control sequence stands somewhere in a text. -/
def HasControlSequence (t : Text) : Prop := ∃ s, IsControlSequence s ∧ s <:+: t

/-! ### One sequence -/

section Kinds

variable {c : Char}

theorem isParameter_iff : isParameter c = true ↔ 0x30 ≤ c.toNat ∧ c.toNat ≤ 0x3F := by
  rw [isParameter, Bool.and_eq_true, decide_eq_true_iff, decide_eq_true_iff]
  exact Iff.rfl

theorem isIntermediate_iff : isIntermediate c = true ↔ 0x20 ≤ c.toNat ∧ c.toNat ≤ 0x2F := by
  rw [isIntermediate, Bool.and_eq_true, decide_eq_true_iff, decide_eq_true_iff]
  exact Iff.rfl

theorem isFinal_iff : isFinal c = true ↔ 0x40 ≤ c.toNat ∧ c.toNat ≤ 0x7E := by
  rw [isFinal, Bool.and_eq_true, decide_eq_true_iff, decide_eq_true_iff]
  exact Iff.rfl

/-- The kinds of characters have none in common. -/
theorem not_isParameter_of_isIntermediate (h : isIntermediate c = true) :
    ¬ isParameter c = true := by
  rw [isIntermediate_iff] at h
  rw [isParameter_iff]
  omega

theorem not_isParameter_of_isFinal (h : isFinal c = true) : ¬ isParameter c = true := by
  rw [isFinal_iff] at h
  rw [isParameter_iff]
  omega

theorem not_isIntermediate_of_isFinal (h : isFinal c = true) : ¬ isIntermediate c = true := by
  rw [isFinal_iff] at h
  rw [isIntermediate_iff]
  omega

end Kinds

/-- **What is left behind a sequence is found exactly if one stands at the front.** -/
theorem isSome_afterSequence?_iff {t : Text} :
    (afterSequence? t).isSome ↔ ∃ s, IsControlSequence s ∧ s <+: escapeChar :: t := by
  constructor
  · intro h
    unfold afterSequence? at h
    split at h
    · rename_i t
      rw [Option.isSome_map, Ending.isSome_takeIf?_iff] at h
      obtain ⟨final, back, hleft, hfinal⟩ := h
      have hleft : (t.dropWhile isParameter).dropWhile isIntermediate = final :: back := hleft
      refine ⟨escapeChar :: '[' :: (t.takeWhile isParameter ++
        ((t.dropWhile isParameter).takeWhile isIntermediate ++ [final])),
        ⟨_, _, final, rfl, fun c ↦ List.mem_takeWhile_imp, fun c ↦ List.mem_takeWhile_imp,
          hfinal⟩, back, ?_⟩
      have hsplit : t = t.takeWhile isParameter ++
          ((t.dropWhile isParameter).takeWhile isIntermediate ++ final :: back) := by
        rw [← hleft, List.takeWhile_append_dropWhile, List.takeWhile_append_dropWhile]
      rw [List.cons_append, List.cons_append, List.append_assoc, List.append_assoc,
        List.singleton_append, ← hsplit]
    · cases h
  · rintro ⟨_, ⟨parameters, intermediates, final, rfl, hparameters, hintermediates, hfinal⟩, back,
      ht⟩
    obtain rfl : t = '[' :: (parameters ++ (intermediates ++ final :: back)) := by
      simpa using (List.cons.inj ht).2.symm
    -- what stands behind the parameters begins with no parameter
    have hparts : (parameters ++ (intermediates ++ final :: back)).dropWhile isParameter =
        intermediates ++ final :: back := by
      rw [List.dropWhile_append_of_pos hparameters]
      rcases intermediates with - | ⟨c, intermediates⟩
      · exact List.dropWhile_cons_of_neg (not_isParameter_of_isFinal hfinal)
      · exact List.dropWhile_cons_of_neg
          (not_isParameter_of_isIntermediate (hintermediates c List.mem_cons_self))
    have hleft : ((parameters ++ (intermediates ++ final :: back)).dropWhile
        isParameter).dropWhile isIntermediate = final :: back := by
      rw [hparts, List.dropWhile_append_of_pos hintermediates]
      exact List.dropWhile_cons_of_neg (not_isIntermediate_of_isFinal hfinal)
    rw [afterSequence?, Option.isSome_map, Ending.isSome_takeIf?_iff]
    exact ⟨final, back, hleft, hfinal⟩

/-! ### All sequences -/

/-- A text without its control sequences is not longer. -/
theorem length_withoutControlSequences_le (t : Text) :
    (withoutControlSequences t).length ≤ t.length := by
  fun_induction withoutControlSequences t with
  | case1 => exact Nat.le_refl 0
  | case2 rest left _ ih => exact Nat.le_succ_of_le (Nat.le_trans ih left.length_le)
  | case3 rest _ ih => exact Nat.succ_le_succ ih
  | case4 c rest _ ih => exact Nat.succ_le_succ ih

/-- A sequence stands at the front of a text, or somewhere behind its first character. -/
theorem hasControlSequence_cons_iff {c : Char} {t : Text} : HasControlSequence (c :: t) ↔
    (∃ s, IsControlSequence s ∧ s <+: c :: t) ∨ HasControlSequence t := by
  simp only [HasControlSequence, List.infix_cons_iff, and_or_left, exists_or]

/-- A sequence begins with an escape character. -/
theorem eq_escapeChar_of_front {s : Text} (hs : IsControlSequence s) {c : Char} {t : Text}
    (h : s <+: c :: t) : c = escapeChar := by
  obtain ⟨parameters, intermediates, final, rfl, -⟩ := hs
  exact (List.cons_prefix_cons.1 h).1.symm

/-- **A text is written as it is exactly if no control sequence stands in it.** -/
theorem withoutControlSequences_eq_self_iff {t : Text} :
    withoutControlSequences t = t ↔ ¬ HasControlSequence t := by
  fun_induction withoutControlSequences t with
  | case1 =>
    refine iff_of_true rfl ?_
    rintro ⟨_, ⟨parameters, intermediates, final, rfl, -⟩, hinside⟩
    exact List.cons_ne_nil _ _ (List.infix_nil.1 hinside)
  | case2 rest left hleft ih =>
    -- what is left of a sequence is shorter
    refine iff_of_false (fun heq ↦ ?_) (not_not_intro ?_)
    · have hle := Nat.le_trans (length_withoutControlSequences_le left.text) left.length_le
      rw [heq, List.length_cons] at hle
      exact Nat.not_succ_le_self _ hle
    · exact hasControlSequence_cons_iff.2 (.inl (isSome_afterSequence?_iff.1 (by rw [hleft]; rfl)))
  | case3 rest hnone ih =>
    rw [hasControlSequence_cons_iff, ← isSome_afterSequence?_iff, hnone]
    simp [ih]
  | case4 c rest hne ih =>
    have hnone : ¬ ∃ s, IsControlSequence s ∧ s <+: c :: rest := by
      rintro ⟨s, hs, hfront⟩
      exact hne (eq_escapeChar_of_front hs hfront)
    rw [hasControlSequence_cons_iff, or_iff_right hnone]
    simp [ih]

instance (t : Text) : Decidable (HasControlSequence t) :=
  decidable_of_iff (¬ withoutControlSequences t = t) (by
    rw [withoutControlSequences_eq_self_iff, not_not])

end Text

end CellStitch
