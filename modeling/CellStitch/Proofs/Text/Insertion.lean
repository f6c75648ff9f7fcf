import CellStitch.Proofs.Text.WholeLines
/-!
# A line of a text, and what is inserted into it

A line of a text stands between whole lines above it and what begins with the break behind it
(`Text.IsLine`), and every offset lies on such a line (`Text.exists_isLine`). A text is rendered
part by part around a line (`Rendering.text_of_isLine`).

So what is inserted into a text is rendered as it is, if no line that ends in it needs an annotation
(`Rendering.text_insert`). The induction is on what is inserted: a character joins the part of the
line in front of it, and a break makes this part a whole line.
-/

namespace CellStitch

namespace Text

/-! ### The line of an offset -/

/-- The line of a text in which an offset lies. A break belongs to the line that it ends. -/
def lineOf (t : Text) (o : Nat) : Text := t.lines.getD (t.positionAt o).line []

/-- A line of the text `above ++ line ++ below`. -/
structure IsLine (above line below : Text) : Prop where
  wholeLines_above : above.WholeLines
  not_mem : '\n' ∉ line
  below_cases : below = [] ∨ ∃ u, below = '\n' :: u

/-- A text falls into whole lines and a line that is not ended. -/
theorem exists_wholeLines_append (t : Text) :
    ∃ above line, WholeLines above ∧ '\n' ∉ line ∧ t = above ++ line := by
  induction t with
  | nil => exact ⟨[], [], .inl rfl, List.not_mem_nil, rfl⟩
  | cons c t ih =>
    obtain ⟨above, line, habove, hline, rfl⟩ := ih
    rcases habove with rfl | ⟨v, rfl⟩
    · by_cases hc : c = '\n'
      · subst hc
        exact ⟨['\n'], line, .inr ⟨[], rfl⟩, hline, rfl⟩
      · refine ⟨[], c :: line, .inl rfl, ?_, rfl⟩
        simpa [hline] using Ne.symm hc
    · exact ⟨c :: (v ++ ['\n']), line, .inr ⟨c :: v, rfl⟩, hline, rfl⟩

/-- A text falls into the end of a line and what follows that line. -/
theorem exists_append_below (t : Text) :
    ∃ line below, '\n' ∉ line ∧ (below = [] ∨ ∃ u, below = '\n' :: u) ∧ t = line ++ below := by
  induction t with
  | nil => exact ⟨[], [], List.not_mem_nil, .inl rfl, rfl⟩
  | cons c t ih =>
    by_cases hc : c = '\n'
    · subst hc
      exact ⟨[], '\n' :: t, List.not_mem_nil, .inr ⟨t, rfl⟩, rfl⟩
    · obtain ⟨line, below, hline, hbelow, rfl⟩ := ih
      refine ⟨c :: line, below, ?_, hbelow, rfl⟩
      simpa [hline] using Ne.symm hc

/-- **Every offset lies on a line**, which it cuts in two. -/
theorem exists_isLine {t : Text} {o : Nat} (ho : o ≤ t.length) :
    ∃ above left right below, IsLine above (left ++ right) below ∧
      t = above ++ (left ++ right) ++ below ∧ o = (above ++ left).length := by
  obtain ⟨above, left, habove, hleft, htake⟩ := exists_wholeLines_append (t.take o)
  obtain ⟨right, below, hright, hbelow, hdrop⟩ := exists_append_below (t.drop o)
  refine ⟨above, left, right, below, ⟨habove, ?_, hbelow⟩, ?_, ?_⟩
  · rw [List.mem_append, not_or]
    exact ⟨hleft, hright⟩
  · calc t = t.take o ++ t.drop o := (List.take_append_drop o t).symm
      _ = above ++ left ++ (right ++ below) := by rw [htake, hdrop]
      _ = above ++ (left ++ right) ++ below := by simp only [List.append_assoc]
  · rw [← htake, List.length_take_of_le ho]

/-- What stands behind whole lines does not change them. -/
theorem WholeLines.lines_append {above : Text} (h : above.WholeLines) (u : Text) :
    lines (above ++ u) = (lines above).dropLast ++ lines u := by
  rcases h with rfl | ⟨v, rfl⟩
  · rfl
  · have hlast : lines (v ++ ['\n']) = lines v ++ [[]] := lines_append_break v []
    rw [List.append_assoc, List.singleton_append, lines_append_break, hlast,
      List.dropLast_concat]

/-- As many lines are ended by a break as there are breaks. -/
theorem length_dropLast_lines (t : Text) : (lines t).dropLast.length = t.count '\n' := by
  rw [List.length_dropLast, length_lines, Nat.add_sub_cancel]

/-- Whole lines have the length of their text. -/
theorem WholeLines.lengthWithBreaks_dropLast {above : Text} (h : above.WholeLines) :
    lengthWithBreaks (lines above).dropLast = above.length := by
  have hall := lengthWithBreaks_lines above
  have hsplit := h.lines_append []
  rw [List.append_nil] at hsplit
  rw [hsplit, lengthWithBreaks_append] at hall
  exact Nat.succ.inj hall

namespace IsLine

variable {above line below : Text}

/-- A line stays one when a break is put at the end of the text. -/
theorem append_break (h : IsLine above line below) : IsLine above line (below ++ ['\n']) := by
  refine ⟨h.wholeLines_above, h.not_mem, .inr ?_⟩
  rcases h.below_cases with rfl | ⟨u, rfl⟩ <;> exact ⟨_, rfl⟩

/-- What follows a line does not change it. -/
theorem exists_lines_eq (h : IsLine above line below) :
    ∃ ls, lines (line ++ below) = line :: ls := by
  have hline := lines_of_not_mem h.not_mem
  rcases h.below_cases with rfl | ⟨u, rfl⟩
  · exact ⟨[], by rw [List.append_nil, hline]⟩
  · exact ⟨lines u, by rw [lines_append_break, hline, List.singleton_append]⟩

/-- The number of the line is the number of breaks above it. -/
theorem getElem?_lines (h : IsLine above line below) :
    (lines (above ++ line ++ below))[above.count '\n']? = some line := by
  obtain ⟨ls, hls⟩ := h.exists_lines_eq
  rw [List.append_assoc, h.wholeLines_above.lines_append, hls, ← length_dropLast_lines]
  simp

/-- Everything above the line is made up of the lines in front of it. -/
theorem lengthWithBreaks_take (h : IsLine above line below) :
    lengthWithBreaks ((lines (above ++ line ++ below)).take (above.count '\n')) = above.length := by
  rw [List.append_assoc, h.wholeLines_above.lines_append, ← length_dropLast_lines,
    List.take_left, h.wholeLines_above.lengthWithBreaks_dropLast]

/-- An offset on a line finds the line. -/
theorem lineOf_eq {left right : Text} (h : IsLine above (left ++ right) below) :
    (above ++ (left ++ right) ++ below).lineOf (above ++ left).length = left ++ right := by
  have hpos := (positionAt_of_line h.getElem?_lines (k := left.length) (by simp)).2
  rw [h.lengthWithBreaks_take, ← List.length_append] at hpos
  rw [lineOf, hpos, List.getD_eq_getElem?_getD, h.getElem?_lines]
  rfl

end IsLine

end Text

/-! ### Rendering around a line -/

namespace Rendering

open Text (WholeLines IsLine lineOf)

/-- The annotation of a line, if it gets one. -/
def mark (annotate : Bool) (l : Text) : Text := if annotate && needsSkipMark l then skipMark else []

section Mark

variable {annotate : Bool} {l l' : Text}

/-- A line that needs no annotation has none. -/
theorem mark_eq_nil (h : annotate = false ∨ needsSkipMark l = false) : mark annotate l = [] := by
  rcases h with h | h <;> simp [mark, h]

/-- Lines that need annotations alike have the same one. -/
theorem mark_congr (h : annotate = false ∨ needsSkipMark l = needsSkipMark l') :
    mark annotate l = mark annotate l' := by
  rcases h with h | h <;> simp [mark, h]

end Mark

variable {annotate : Bool} {above line below left right : Text}

/-- Without a carriage return the annotation stands at the end of the line. -/
theorem line_eq_append_mark (h : annotate = false ∨ '\r' ∉ line) :
    Rendering.line annotate line = line ++ mark annotate line := by
  rw [Rendering.line, mark]
  split
  · rename_i hmark
    have hreturn : '\r' ∉ line := by
      refine h.resolve_left ?_
      rintro rfl
      cases hmark
    rw [markLine, if_neg]
    intro hends
    exact hreturn (List.mem_of_getLast? (by simpa [Text.endsWith] using hends))
  · exact (List.append_nil line).symm

/-- Whole lines are rendered as whole lines. -/
theorem wholeLines_text (h : above.WholeLines) : (text annotate above).WholeLines := by
  rcases h with rfl | ⟨v, rfl⟩
  · exact .inl (text_nil annotate)
  · exact .inr ⟨text annotate v, text_append_break_nil annotate v⟩

/-- What stands behind whole lines is rendered for itself. -/
theorem text_append_of_wholeLines (h : above.WholeLines) (u : Text) :
    text annotate (above ++ u) = text annotate above ++ text annotate u := by
  rcases h with rfl | ⟨v, rfl⟩
  · rw [text_nil]
    rfl
  · rw [text_append_break_nil, List.append_assoc, List.append_assoc, List.singleton_append,
      text_append_break]
    rfl

/-- An empty line in front is rendered as it is. -/
theorem text_cons_break (annotate : Bool) (t : Text) :
    text annotate ('\n' :: t) = '\n' :: text annotate t := by
  have h := text_append_break annotate [] t
  rwa [text_nil] at h

/-- A text without breaks is rendered as the line it is. -/
theorem text_of_not_mem (annotate : Bool) (h : '\n' ∉ line) :
    text annotate line = Rendering.line annotate line := by
  rw [text, Text.lines_of_not_mem h]
  rfl

/-- **A text is rendered part by part around a line.** -/
theorem text_of_isLine (annotate : Bool) (h : IsLine above line below) :
    text annotate (above ++ line ++ below) =
      text annotate above ++ Rendering.line annotate line ++ text annotate below := by
  have hline := text_of_not_mem annotate h.not_mem
  rw [List.append_assoc, text_append_of_wholeLines h.wholeLines_above, List.append_assoc]
  rcases h.below_cases with rfl | ⟨u, rfl⟩
  · rw [text_nil, List.append_nil, List.append_nil, hline]
  · rw [text_append_break, text_cons_break, hline]

/-- A rendered line is a line of the rendered text. -/
theorem isLine_text (annotate : Bool) (h : IsLine above line below) :
    IsLine (text annotate above) (Rendering.line annotate line) (text annotate below) := by
  refine ⟨wholeLines_text h.wholeLines_above, not_mem_line annotate h.not_mem, ?_⟩
  rcases h.below_cases with rfl | ⟨u, rfl⟩
  · exact .inl (text_nil annotate)
  · exact .inr ⟨text annotate u, text_cons_break annotate u⟩

/-- A line that is ended and gets no annotation is rendered as it is. -/
theorem text_append_unmarked (habove : above.WholeLines) (hline : '\n' ∉ line)
    (hreturn : annotate = false ∨ '\r' ∉ line) (hmark : mark annotate line = []) :
    text annotate (above ++ line ++ ['\n']) = text annotate above ++ line ++ ['\n'] := by
  rw [text_append_break_nil, text_append_of_wholeLines habove, text_of_not_mem annotate hline,
    line_eq_append_mark hreturn, hmark, List.append_nil]

/-- A line without a carriage return is rendered with its annotation behind it. -/
theorem text_of_lineOf {t : Text} {o : Nat} (h : IsLine above (left ++ right) below)
    (ht : t = above ++ (left ++ right) ++ below) (ho : o = (above ++ left).length)
    (hreturn : annotate = false ∨ '\r' ∉ left ++ right) :
    text annotate t = text annotate above ++ (left ++ right) ++ mark annotate (t.lineOf o) ++
      text annotate below := by
  have hfound : t.lineOf o = left ++ right := by rw [ho, ht, h.lineOf_eq]
  rw [hfound, ht, text_of_isLine annotate h, line_eq_append_mark hreturn,
    ← List.append_assoc (text annotate above)]

/-- A line ends at its break. -/
theorem lineOf_of_break {t rest : Text} {o : Nat} (habove : above.WholeLines) (hleft : '\n' ∉ left)
    (ht : t = above ++ left ++ '\n' :: rest) (ho : o = (above ++ left).length) :
    t.lineOf o = left := by
  have hline : IsLine above (left ++ []) ('\n' :: rest) :=
    ⟨habove, by rwa [List.append_nil], .inr ⟨rest, rfl⟩⟩
  have hfound := hline.lineOf_eq
  rwa [List.append_nil, ← ht, ← ho] at hfound

/-- **What is inserted into a line is rendered as it is**, if no line that ends in it gets an
annotation. The line behind it gets the one that it gets as a whole. -/
theorem text_insert {t new : Text} {o : Nat} (ht : t = above ++ left ++ new ++ right ++ below)
    (ho : o = (above ++ left).length) (habove : above.WholeLines) (hleft : '\n' ∉ left)
    (hright : '\n' ∉ right) (hbelow : below = [] ∨ ∃ u, below = '\n' :: u)
    (hreturn : annotate = false ∨ '\r' ∉ left ++ new ++ right)
    (hinside : ∀ k, new[k]? = some '\n' → mark annotate (t.lineOf (o + k)) = []) :
    text annotate t = text annotate above ++ left ++ new ++ right ++
      mark annotate (t.lineOf (o + new.length)) ++ text annotate below := by
  induction new generalizing above left o with
  | nil =>
    have hline : IsLine above (left ++ right) below :=
      ⟨habove, by simp [hleft, hright], hbelow⟩
    have htext : t = above ++ (left ++ right) ++ below := by rw [ht]; simp
    rw [List.length_nil, Nat.add_zero, text_of_lineOf hline htext ho (by simpa using hreturn)]
    simp
  | cons c new ih =>
    have hbehind : ∀ k, o + (k + 1) = o + 1 + k := fun k ↦ by omega
    have hinside' : ∀ k, new[k]? = some '\n' → mark annotate (t.lineOf (o + 1 + k)) = [] := by
      intro k hk
      rw [← hbehind]
      exact hinside (k + 1) hk
    rw [List.length_cons, hbehind]
    by_cases hc : c = '\n'
    · subst hc
      -- the part of the line in front is a whole line of the new text, and gets no annotation
      have hbreak : t = above ++ left ++ '\n' :: (new ++ right ++ below) := by
        rw [ht]
        simp
      have hunmarked : mark annotate left = [] := by
        rw [← lineOf_of_break habove hleft hbreak ho]
        exact hinside 0 rfl
      obtain ⟨hreturnLeft, hreturnRest⟩ :
          (annotate = false ∨ '\r' ∉ left) ∧ (annotate = false ∨ '\r' ∉ [] ++ new ++ right) := by
        rw [← or_and_left]
        refine hreturn.imp_right fun hnone ↦ ?_
        simpa [not_or] using hnone
      have hmoved : t = above ++ left ++ ['\n'] ++ [] ++ new ++ right ++ below := by
        rw [ht]
        simp
      have hoffset : o + 1 = (above ++ left ++ ['\n'] ++ []).length := by
        rw [ho]
        simp [Nat.add_assoc]
      rw [ih hmoved hoffset (.inr ⟨_, rfl⟩) List.not_mem_nil hreturnRest hinside',
        text_append_unmarked habove hleft hreturnLeft hunmarked]
      simp
    · have hmoved : t = above ++ (left ++ [c]) ++ new ++ right ++ below := by
        rw [ht]
        simp
      have hoffset : o + 1 = (above ++ (left ++ [c])).length := by
        rw [ho]
        simp [Nat.add_assoc]
      rw [ih hmoved hoffset habove (by simpa [hleft] using Ne.symm hc) (by simpa using hreturn)
        hinside']
      simp

end Rendering

end CellStitch
