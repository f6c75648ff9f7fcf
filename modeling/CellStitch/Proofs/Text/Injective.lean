import CellStitch.Proofs.SkipMark
import CellStitch.Proofs.Text.WholeLines
/-!
# Nothing is lost in rendering

A text can be told from what is rendered of it (`Rendering.text_injective`), although a text may
have annotations of its own. A line to skip is still one with its annotation
(`Rendering.needsSkipMark_markLine`). A line that is left as it is can therefore not look like one
that got its annotation.
-/

namespace CellStitch

namespace Rendering

theorem markLine_injective {l l' : Text} (h : markLine l = markLine l') : l = l' := by
  obtain ⟨front, back, rfl, hmark, hback⟩ := exists_markLine_eq l
  obtain ⟨front', back', rfl, hmark', hback'⟩ := exists_markLine_eq l'
  have hplain : ∀ u, u ++ (skipMark ++ []) = u ++ " # type: ignor".toList ++ ['e'] := by
    intro u
    rw [List.append_assoc]
    rfl
  have hreturn : ∀ u, u ++ (skipMark ++ ['\r']) = u ++ skipMark ++ ['\r'] := by
    intro u
    rw [List.append_assoc]
  rw [hmark, hmark'] at h
  rcases hback with rfl | rfl <;> rcases hback' with rfl | rfl
  · rw [List.append_cancel_right h]
  · -- the last characters are different ones
    rw [hplain, hreturn] at h
    exact absurd (List.append_inj' h rfl).2 (by decide)
  · rw [hplain, hreturn] at h
    exact absurd (List.append_inj' h rfl).2 (by decide)
  · rw [List.append_cancel_right h]

/-- **A line can be told from the rendered line.** -/
theorem line_injective {annotate : Bool} {l l' : Text} (h : line annotate l = line annotate l') :
    l = l' := by
  unfold line at h
  split at h <;> split at h
  · exact markLine_injective h
  · rename_i hmark hplain
    obtain ⟨rfl, hl⟩ := Bool.and_eq_true_iff.1 hmark
    rw [← h, needsSkipMark_markLine hl] at hplain
    exact absurd rfl hplain
  · rename_i hplain hmark
    obtain ⟨rfl, hl⟩ := Bool.and_eq_true_iff.1 hmark
    rw [h, needsSkipMark_markLine hl] at hplain
    exact absurd rfl hplain
  · exact h

/-- **A text can be told from the rendered text.** -/
theorem text_injective {annotate : Bool} {t u : Text} (h : text annotate t = text annotate u) :
    t = u := by
  have hlines := congrArg Text.lines h
  rw [lines_text, lines_text] at hlines
  rw [← Text.unlines_lines t, ← Text.unlines_lines u,
    List.map_injective_iff.2 (fun _ _ ↦ line_injective) hlines]

end Rendering

end CellStitch
