import CellStitch.Rendering
import Mathlib.Data.List.Basic
import Mathlib.Data.List.TakeWhile
/-!
# Lines to skip

What makes a line one to skip stands at its front (`Skipped`), so that such a line is still one with
something behind it (`needsSkipMark_append`). The annotation goes before a carriage return that ends
the line, which makes no difference: a blank at the end of a line is never what makes it one to skip
(`needsSkipMark_of_append_blank`).

No other line gets the annotation. The keyword `await` alone could not have it and stay what it is,
because the annotation would be its operand; no other line would become one to skip by it
(`Rendering.needsSkipMark_markLine_iff`).
-/

namespace CellStitch

/-! ### Blanks at the ends -/

namespace Text

theorem trimLeft_append {t : Text} (h : t.trimLeft ≠ []) (u : Text) :
    trimLeft (t ++ u) = t.trimLeft ++ u := by
  rw [trimLeft, List.dropWhile_append, ← trimLeft, if_neg]
  rwa [List.isEmpty_iff]

theorem trimLeft_append_of_eq_nil {t : Text} (h : t.trimLeft = []) (u : Text) :
    trimLeft (t ++ u) = u.trimLeft :=
  List.dropWhile_append_of_pos (List.dropWhile_eq_nil_iff.1 h)

/-- What is taken off at the end is blank. -/
theorem exists_trimLeft_eq (t : Text) :
    ∃ back, t.trimLeft = t.trim ++ back ∧ ∀ c ∈ back, CellStitch.isBlank c = true := by
  refine ⟨(t.trimLeft.reverse.takeWhile CellStitch.isBlank).reverse, ?_, ?_⟩
  · rw [trim, ← List.reverse_append, List.takeWhile_append_dropWhile, List.reverse_reverse]
  · exact fun c hc ↦ List.mem_takeWhile_imp (List.mem_reverse.1 hc)

/-- Blanks behind a text are taken off. -/
theorem trim_append_of_isBlank (t : Text) {u : Text} (hu : ∀ c ∈ u, CellStitch.isBlank c = true) :
    trim (t ++ u) = trim t := by
  rcases Decidable.em (t.trimLeft = []) with h | h
  · rw [trim, trim, trimLeft_append_of_eq_nil h, h, trimLeft, List.dropWhile_eq_nil_iff.2 hu]
  · rw [trim, trimLeft_append h, List.reverse_append,
      List.dropWhile_append_of_pos fun c hc ↦ hu c (List.mem_reverse.1 hc), trim]

end Text

/-! ### Lines to skip -/

/-- What a line to skip has behind its leading blanks. -/
inductive Skipped : Text → Prop where
  | magic (t : Text) : Skipped ('%' :: t)
  | escape (t : Text) : Skipped ('!' :: t)
  /-- The keyword, a blank, and an operand somewhere behind it. -/
  | await {c x : Char} {t : Text} (hc : isBlank c = true) (hx : x ∈ t) (hx' : isBlank x = false) :
    Skipped ("await".toList ++ c :: t)

/-- An await stands in front of a blank and of something that is not blank. -/
theorem isAwait_iff {t : Text} : isAwait t = true ↔ ∃ c x rest, isBlank c = true ∧ x ∈ rest ∧
    isBlank x = false ∧ t = "await".toList ++ c :: rest := by
  rw [isAwait, Bool.and_eq_true, List.isPrefixOf_iff_prefix]
  constructor
  · rintro ⟨⟨rest, rfl⟩, hrest⟩
    have hdrop : ("await".toList ++ rest).drop "await".length = rest := rfl
    rw [hdrop] at hrest
    rcases rest with - | ⟨c, rest⟩
    · cases hrest
    · obtain ⟨hc, hx⟩ := Bool.and_eq_true_iff.1 hrest
      simp only [Text.isBlank, Bool.not_eq_true', List.all_eq_false] at hx
      obtain ⟨x, hx, hx'⟩ := hx
      exact ⟨c, x, rest, hc, hx, by simpa using hx', rfl⟩
  · rintro ⟨c, x, rest, hc, hx, hx', rfl⟩
    refine ⟨List.prefix_append _ _, ?_⟩
    show (isBlank c && !Text.isBlank rest) = true
    rw [hc, Bool.true_and, Bool.not_eq_true', Text.isBlank, List.all_eq_false]
    exact ⟨x, hx, by simp [hx']⟩

/-- **A line gets the annotation** by what stands behind its leading blanks. -/
theorem needsSkipMark_iff {l : Text} : needsSkipMark l = true ↔ Skipped l.trimLeft := by
  rw [needsSkipMark]
  constructor
  · intro h
    split at h
    · cases h
    · rename_i t ht
      rw [ht]
      exact .magic t
    · rename_i t ht
      rw [ht]
      exact .escape t
    · obtain ⟨c, x, rest, hc, hx, hx', ht⟩ := isAwait_iff.1 h
      rw [ht]
      exact .await hc hx hx'
  · intro h
    generalize l.trimLeft = t at h
    cases h with
    | magic t => rfl
    | escape t => rfl
    | await hc hx hx' => exact isAwait_iff.2 ⟨_, _, _, hc, hx, hx', rfl⟩

namespace Skipped

variable {t : Text}

/-- Such a text begins with a character that is not blank. -/
theorem exists_cons (h : Skipped t) : ∃ c rest, t = c :: rest ∧ isBlank c = false := by
  cases h with
  | magic t => exact ⟨'%', t, rfl, by decide⟩
  | escape t => exact ⟨'!', t, rfl, by decide⟩
  | @await c x t _ _ _ => exact ⟨'a', "wait".toList ++ c :: t, rfl, by decide⟩

theorem ne_nil (h : Skipped t) : t ≠ [] := by
  obtain ⟨c, rest, rfl, -⟩ := h.exists_cons
  exact List.cons_ne_nil c rest

/-- What stands behind such a text does not count. -/
theorem append (h : Skipped t) (u : Text) : Skipped (t ++ u) := by
  cases h with
  | magic t => exact .magic (t ++ u)
  | escape t => exact .escape (t ++ u)
  | @await c x t hc hx hx' => exact .await (t := t ++ u) hc (List.mem_append_left u hx) hx'

/-- A blank behind such a text is not what makes it one. -/
theorem of_append_blank {b : Char} (hb : isBlank b = true) (h : Skipped (t ++ [b])) :
    Skipped t := by
  obtain ⟨c, rest, hcons, hc⟩ := h.exists_cons
  rcases t with - | ⟨a, t⟩
  · -- the blank alone is none
    obtain rfl : b = c := (List.cons.inj hcons).1
    rw [hb] at hc
    cases hc
  · generalize hw : a :: t ++ [b] = w at h
    cases h with
    | magic u =>
      obtain rfl : a = '%' := (List.cons.inj hw).1
      exact .magic t
    | escape u =>
      obtain rfl : a = '!' := (List.cons.inj hw).1
      exact .escape t
    | @await c x u hc hx hx' =>
      -- the operand is not that blank, so it stands in front of it
      obtain ⟨v, y, rfl⟩ : ∃ v y, u = v ++ [y] :=
        ⟨_, _, (List.dropLast_append_getLast (List.ne_nil_of_mem hx)).symm⟩
      obtain ⟨ht, hy⟩ : a :: t = "await".toList ++ c :: v ∧ [b] = [y] :=
        List.append_inj' (by rw [hw, List.append_assoc, List.cons_append]) rfl
      obtain rfl : b = y := (List.cons.inj hy).1
      rw [ht]
      refine .await hc ((List.mem_append.1 hx).resolve_right fun hlast ↦ ?_) hx'
      rw [List.mem_singleton.1 hlast, hb] at hx'
      cases hx'

end Skipped

/-- What stands behind a line to skip does not count. -/
theorem needsSkipMark_append {l : Text} (h : needsSkipMark l = true) (u : Text) :
    needsSkipMark (l ++ u) = true := by
  have hl := needsSkipMark_iff.1 h
  rw [needsSkipMark_iff, Text.trimLeft_append hl.ne_nil]
  exact hl.append u

/-- A blank at the end of a line to skip does not count either. -/
theorem needsSkipMark_of_append_blank {l : Text} {b : Char} (hb : isBlank b = true)
    (h : needsSkipMark (l ++ [b]) = true) : needsSkipMark l = true := by
  rw [needsSkipMark_iff] at h ⊢
  rcases Decidable.em (l.trimLeft = []) with hnil | hne
  · have hblank : Text.trimLeft [b] = [] := by simp [Text.trimLeft, hb]
    rw [Text.trimLeft_append_of_eq_nil hnil, hblank] at h
    exact absurd rfl h.ne_nil
  · rw [Text.trimLeft_append hne] at h
    exact h.of_append_blank hb

/-! ### The keyword alone -/

/-- What a line with nothing but the keyword has behind its leading blanks. -/
def IsBareAwait (t : Text) : Prop :=
  ∃ back, t = "await".toList ++ back ∧ ∀ c ∈ back, isBlank c = true

/-- White space around a bare await does not matter. -/
theorem isBareAwait_trimLeft_iff {l : Text} :
    IsBareAwait l.trimLeft ↔ l.trim = "await".toList := by
  constructor
  · rintro ⟨back, hl, hback⟩
    rw [Text.trim, hl, List.reverse_append,
      List.dropWhile_append_of_pos fun c hc ↦ hback c (List.mem_reverse.1 hc)]
    rfl
  · intro h
    obtain ⟨back, hl, hback⟩ := Text.exists_trimLeft_eq l
    exact ⟨back, by rw [hl, h], hback⟩

/-- The keyword alone has no operand. -/
theorem IsBareAwait.not_skipped {t : Text} (h : IsBareAwait t) : ¬Skipped t := by
  obtain ⟨back, rfl, hback⟩ := h
  intro hskipped
  generalize hw : "await".toList ++ back = w at hskipped
  cases hskipped with
  | magic u => cases hw
  | escape u => cases hw
  | await hc hx hx' =>
    rw [List.append_cancel_left hw] at hback
    rw [hback _ (List.mem_cons_of_mem _ hx)] at hx'
    cases hx'

/-- An annotation behind the keyword is an operand. -/
theorem IsBareAwait.skipped_append {t : Text} (h : IsBareAwait t) (u : Text) :
    Skipped (t ++ (skipMark ++ u)) := by
  obtain ⟨back, rfl, hback⟩ := h
  have hmark : skipMark ++ u = ' ' :: '#' :: (" type: ignore".toList ++ u) := rfl
  rw [hmark, List.append_assoc]
  rcases back with - | ⟨b, back⟩
  · exact .await (by decide) List.mem_cons_self (by decide)
  · have hoperand : '#' ∈ back ++ ' ' :: '#' :: (" type: ignore".toList ++ u) :=
      List.mem_append_right _ (List.mem_cons_of_mem _ List.mem_cons_self)
    exact .await (hback b List.mem_cons_self) hoperand (by decide)

/-- **An annotation makes only the keyword alone** a text to skip. -/
theorem Skipped.of_append_skipMark {t u : Text} (ht : t ≠ []) (h : Skipped (t ++ (skipMark ++ u))) :
    Skipped t ∨ IsBareAwait t := by
  obtain ⟨a, t, rfl⟩ := List.exists_cons_of_ne_nil ht
  generalize hw : a :: t ++ (skipMark ++ u) = w at h
  cases h with
  | magic v =>
    obtain rfl : a = '%' := (List.cons.inj hw).1
    exact .inl (.magic t)
  | escape v =>
    obtain rfl : a = '!' := (List.cons.inj hw).1
    exact .inl (.escape t)
  | @await c x v hc hx hx' =>
    rcases List.append_eq_append_iff.1 hw with ⟨rest, hkey, hrest⟩ | ⟨back, hkey, hrest⟩
    · -- the annotation begins with a blank, and the keyword has none
      rcases rest with - | ⟨b, rest⟩
      · exact .inr ⟨[], by rw [hkey, List.append_nil, List.append_nil], by simp⟩
      · obtain rfl : ' ' = b := (List.cons.inj hrest).1
        have hblank : ' ' ∈ "await".toList := by
          rw [hkey]
          exact List.mem_append_right _ List.mem_cons_self
        exact absurd hblank (by decide)
    · rw [hkey]
      rcases back with - | ⟨b, back⟩
      · exact .inr ⟨[], rfl, by simp⟩
      · obtain rfl : c = b := (List.cons.inj hrest).1
        -- an operand that stands in front of the annotation, or none
        rcases Decidable.em (∀ y ∈ back, isBlank y = true) with hback | hback
        · exact .inr ⟨c :: back, rfl, List.forall_mem_cons.2 ⟨hc, hback⟩⟩
        · simp only [not_forall, Bool.not_eq_true] at hback
          obtain ⟨y, hy, hy'⟩ := hback
          exact .inl (.await hc hy hy')

/-- A mark behind a line, and what stands behind the mark, only matters to a bare await. -/
theorem needsSkipMark_append_skipMark_iff (l u : Text) :
    needsSkipMark (l ++ (skipMark ++ u)) = true ↔
      needsSkipMark l = true ∨ l.trim = "await".toList := by
  rw [needsSkipMark_iff, needsSkipMark_iff, ← isBareAwait_trimLeft_iff]
  rcases Decidable.em (l.trimLeft = []) with hnil | hne
  · -- the annotation itself is none
    have hmark : Text.trimLeft (skipMark ++ u) = "# type: ignore".toList ++ u := rfl
    rw [Text.trimLeft_append_of_eq_nil hnil, hmark, hnil]
    constructor
    · intro h
      generalize hw : "# type: ignore".toList ++ u = w at h
      cases h <;> cases hw
    · rintro (h | ⟨back, h, -⟩) <;> cases h
  · rw [Text.trimLeft_append hne]
    constructor
    · exact Skipped.of_append_skipMark hne
    · rintro (h | h)
      · exact h.append _
      · exact h.skipped_append u

/-! ### Annotated lines -/

namespace Rendering

/-- Where the annotation is put into a line. -/
theorem exists_markLine_eq (l : Text) : ∃ front back, l = front ++ back ∧
    markLine l = front ++ (skipMark ++ back) ∧ (back = [] ∨ back = ['\r']) := by
  rw [markLine]
  split
  · rename_i hreturn
    have hl := List.dropLast_append_getLast? '\r' (by simpa [Text.endsWith] using hreturn)
    exact ⟨l.dropLast, ['\r'], hl.symm, List.append_assoc _ _ _, .inr rfl⟩
  · exact ⟨l, [], (List.append_nil l).symm, rfl, .inl rfl⟩

/-- **With an annotation a line is one to skip** if it is one without, or if it has nothing but the
keyword. -/
theorem needsSkipMark_markLine_iff {l : Text} : needsSkipMark (markLine l) = true ↔
    needsSkipMark l = true ∨ l.trim = "await".toList := by
  obtain ⟨front, back, hl, hmark, hback⟩ := exists_markLine_eq l
  have hskip : needsSkipMark (front ++ back) = true ↔ needsSkipMark front = true := by
    rcases hback with rfl | rfl
    · rw [List.append_nil]
    · exact ⟨needsSkipMark_of_append_blank (by decide), fun h ↦ needsSkipMark_append h _⟩
  have htrim : Text.trim (front ++ back) = Text.trim front := by
    rcases hback with rfl | rfl
    · rw [List.append_nil]
    · exact Text.trim_append_of_isBlank front (List.forall_mem_singleton.2 (by decide))
  rw [hmark, needsSkipMark_append_skipMark_iff, hl, hskip, htrim]

/-- A line to skip is still one with its annotation. -/
theorem needsSkipMark_markLine {l : Text} (h : needsSkipMark l = true) :
    needsSkipMark (markLine l) = true :=
  needsSkipMark_markLine_iff.2 (.inl h)

/-- The annotation makes a difference only to a line with nothing but the keyword. -/
theorem needsSkipMark_markLine_eq_iff {l : Text} :
    needsSkipMark (markLine l) = needsSkipMark l ↔ l.trim ≠ "await".toList := by
  rcases Decidable.em (l.trim = "await".toList) with h | h
  · have hskip : ¬needsSkipMark l = true := fun hskip ↦
      (isBareAwait_trimLeft_iff.2 h).not_skipped (needsSkipMark_iff.1 hskip)
    rw [needsSkipMark_markLine_iff.2 (.inr h), Bool.eq_false_iff.2 hskip]
    exact iff_of_false (by decide) (not_not.2 h)
  · rw [Bool.eq_iff_iff, needsSkipMark_markLine_iff, or_iff_left h]
    exact iff_of_true Iff.rfl h

end Rendering

end CellStitch
