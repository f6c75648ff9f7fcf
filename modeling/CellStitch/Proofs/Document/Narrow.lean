import CellStitch.Proofs.Document.FailedChange
import CellStitch.Proofs.Document.Mapping
import CellStitch.Proofs.Span.Columns
import CellStitch.Proofs.Text.Insertion
/-!
# Edits that are passed on as they are

An edit of a cell is passed on as it is, and not as a new text of the whole cell, if no annotation
comes or goes with it (`Reachable.handle_changed_narrow`). For that no line that ends in what is put
in may need an annotation, and the line behind it must need one exactly if the line did at which the
edit stops (`Text.FlipsNoMark`). Annotations of lines that the edit takes away go with them.

Both ends of an edit go to the document in front of the annotations of their lines
(`Piece.toShown_of_isLine`), so that the document keeps what stands before the edit as it is, and
what stands behind it with the annotation of its first line (`Rendering.splice_text`).
-/

namespace CellStitch

open Cell (offsetAt_eq_ok_iff)
open Text (IsLine)

/-- No annotation comes or goes where the characters from `a` up to `b` are replaced. There are no
carriage returns, no line that ends in the new characters needs an annotation, and the line behind
them needs one exactly if the line of `b` did. -/
structure Text.FlipsNoMark (t : Text) (a b : Nat) (new : Text) : Prop where
  no_return : '\r' ∉ t
  no_return_new : '\r' ∉ new
  inside : ∀ k, new[k]? = some '\n' → needsSkipMark ((t.splice a b new).lineOf (a + k)) = false
  behind : needsSkipMark ((t.splice a b new).lineOf (a + new.length)) =
    needsSkipMark (t.lineOf b)

theorem Text.splice_append_left (front t new : Text) (a b : Nat) :
    splice (front ++ t) (front.length + a) (front.length + b) new = front ++ splice t a b new := by
  simp only [splice, List.take_length_add_append, List.drop_length_add_append, List.append_assoc]

section Splice

variable {annotate : Bool} {line above left right below t : Text}

theorem shownColumn_eq_self (h : annotate = false ∨ '\r' ∉ line) (k : Nat) :
    shownColumn annotate line k = k := by
  rw [shownColumn, if_neg]
  intro hend
  simp only [Bool.and_eq_true] at hend
  obtain ⟨⟨⟨hannotate, -⟩, hreturn⟩, -⟩ := hend
  have hmem : '\r' ∈ line := List.mem_of_getLast? (by simpa [Text.endsWith] using hreturn)
  exact h.elim (fun hfalse ↦ by rw [hfalse] at hannotate; cases hannotate) fun hnot ↦ hnot hmem

/-- **An offset goes to the document in front of the annotation of its line.** -/
theorem Piece.toShown_of_isLine (h : IsLine above (left ++ right) below)
    (hreturn : annotate = false ∨ '\r' ∉ left ++ right) :
    Piece.toShown (Piece.ofText annotate (above ++ (left ++ right) ++ below))
      (above ++ left).length = (Rendering.text annotate above ++ left).length := by
  have hshown := Piece.toShown_ofText annotate h.getElem?_lines (k := left.length) (by simp)
  have hrendered := (Rendering.isLine_text annotate h).lengthWithBreaks_take
  rw [Rendering.count_text] at hrendered
  rw [h.lengthWithBreaks_take, Rendering.text_of_isLine annotate h, hrendered,
    shownColumn_eq_self hreturn] at hshown
  rw [List.length_append, List.length_append, hshown]

/-- **What stands before an offset is rendered on its own**, up to the line of the offset. That line
goes on behind it, and has its annotation there. -/
theorem Rendering.exists_cut {o : Nat} (ho : o ≤ t.length) (hreturn : annotate = false ∨ '\r' ∉ t) :
    ∃ above left right below, IsLine above (left ++ right) below ∧
      t = above ++ left ++ (right ++ below) ∧ o = (above ++ left).length ∧
      Piece.toShown (Piece.ofText annotate (t ++ ['\n'])) o =
        (Rendering.text annotate above ++ left).length ∧
      Rendering.text annotate t = Rendering.text annotate above ++ left ++
        (right ++ mark annotate (t.lineOf o) ++ Rendering.text annotate below) := by
  obtain ⟨above, left, right, below, hline, rfl, rfl⟩ := Text.exists_isLine ho
  have hreturnLine : annotate = false ∨ '\r' ∉ left ++ right :=
    hreturn.imp_right fun hnone hmem ↦
      hnone (List.mem_append_left below (List.mem_append_right above hmem))
  refine ⟨above, left, right, below, hline, ?_, rfl, ?_, ?_⟩
  · simp only [List.append_assoc]
  · rw [List.append_assoc _ below, Piece.toShown_of_isLine hline.append_break hreturnLine]
  · rw [Rendering.text_of_isLine annotate hline, Rendering.line_eq_append_mark hreturnLine,
      hline.lineOf_eq]
    simp only [List.append_assoc]

/-- **Where no annotation comes or goes, the rendered text is spliced as the text is.** -/
theorem Rendering.splice_text {a b : Nat} {new : Text} (ha : a ≤ t.length) (hb : b ≤ t.length)
    (h : annotate = false ∨ t.FlipsNoMark a b new) :
    let pieces := Piece.ofText annotate (t ++ ['\n'])
    (Rendering.text annotate t ++ ['\n']).splice (Piece.toShown pieces a) (Piece.toShown pieces b)
      new = Rendering.text annotate (t.splice a b new) ++ ['\n'] := by
  intro pieces
  have hreturn : annotate = false ∨ '\r' ∉ t := h.imp_right Text.FlipsNoMark.no_return
  obtain ⟨above, left, right, below, hline, ht, ha', hfrom, htext⟩ :=
    Rendering.exists_cut ha hreturn
  obtain ⟨above', left', right', below', hline', ht', hb', hto, htext'⟩ :=
    Rendering.exists_cut hb hreturn
  -- what stands before the edit, and what stands behind it
  have htake : t.take a = above ++ left := by rw [ht, ha', List.take_left]
  have hdrop : t.drop b = right' ++ below' := by rw [ht', hb', List.drop_left]
  have hnew : t.splice a b new = above ++ left ++ new ++ right' ++ below' := by
    rw [Text.splice, htake, hdrop]
    simp only [List.append_assoc]
  -- the same of the rendered text
  have hshownTake : (Rendering.text annotate t ++ ['\n']).take (Piece.toShown pieces a) =
      Rendering.text annotate above ++ left := by
    rw [hfrom, htext, List.append_assoc (_ ++ left), List.take_left]
  have hshownDrop : (Rendering.text annotate t ++ ['\n']).drop (Piece.toShown pieces b) =
      right' ++ mark annotate (t.lineOf b) ++ Rendering.text annotate below' ++ ['\n'] := by
    rw [hto, htext', List.append_assoc (_ ++ left'), List.drop_left]
  have hleft : '\n' ∉ left := fun hmem ↦ hline.not_mem (List.mem_append_left right hmem)
  have hright : '\n' ∉ right' := fun hmem ↦ hline'.not_mem (List.mem_append_right left' hmem)
  have hreturnNew : annotate = false ∨ '\r' ∉ left ++ new ++ right' := by
    refine h.imp_right fun hflips ↦ ?_
    have hnone := hflips.no_return
    have hleftNone : '\r' ∉ left := fun hmem ↦ hnone (by rw [ht]; simp [hmem])
    have hrightNone : '\r' ∉ right' := fun hmem ↦ hnone (by rw [ht']; simp [hmem])
    simp [hleftNone, hrightNone, hflips.no_return_new]
  have hinside : ∀ k, new[k]? = some '\n' →
      mark annotate ((t.splice a b new).lineOf (a + k)) = [] :=
    fun k hk ↦ mark_eq_nil (h.imp_right fun hflips ↦ hflips.inside k hk)
  have hbehind := mark_congr (h.imp_right Text.FlipsNoMark.behind)
  rw [Rendering.text_insert hnew ha' hline.wholeLines_above hleft hright hline'.below_cases
    hreturnNew hinside, hbehind, Text.splice, hshownTake, hshownDrop]
  simp only [List.append_assoc]

end Splice

namespace Document

open Piece (shown toShown)

variable {d : Document} {uri : String}

/-- An edit with which no annotation comes or goes is passed on as it is. -/
theorem Site.passedOn_eq_of_flipsNoMark (s : d.Site uri) {a b : Nat} {new : Text}
    (ha : a ≤ s.cell.text.length) (hb : b ≤ s.cell.text.length) (version : Int)
    (h : d.settings.marks = false ∨ s.cell.text.FlipsNoMark a b new) :
    s.passedOn a b new (s.editedCell a b new version) =
      .ranged ⟨d.positionAt (s.offset + toShown s.pieces a : Nat),
        d.positionAt (s.offset + toShown s.pieces b : Nat)⟩ new := by
  have hsplice := Rendering.splice_text ha hb h
  have hshown : (shown s.pieces).splice (toShown s.pieces a) (toShown s.pieces b) new =
      shown (d.piecesAt (s.editedCell a b new version) s.offset) := by
    -- the header in front is the same before and after the edit
    rw [pieces, shown_piecesAt, shown_piecesAt, piecesAt, Piece.toShown_withHeader,
      Piece.toShown_withHeader, Text.splice_append_left, hsplice]
    rfl
  rw [passedOn, if_pos hshown]

/-- A change with one edit that fits tells the edit that is passed on. -/
theorem Site.handle_changed_singleton (s : d.Site uri) (hd : d.Settled) {version : Int}
    (hversion : s.cell.version < version) {e : Edit} {a b : Nat}
    (hoff : editedOffsets s.cell e = .ok (a, b)) :
    ∃ d', d.handle (.changed uri version [e]) = (d', .ok (some ⟨d.uri, d.version + 1,
      [s.passedOn a b e.text (s.editedCell a b e.text version)]⟩)) := by
  rw [Document.handle, changeCell, s.firstAt.cell?]
  simp only [if_neg (Int.not_le.2 hversion), editCells, s.editCell_eq_ok hd version hoff]
  exact ⟨_, rfl⟩

theorem offsetAt_of_editedOffsets_ranged {c : Cell} {r : Range} {new : Text} {a b : Nat}
    (h : editedOffsets c (.ranged r new) = .ok (a, b)) :
    c.offsetAt r.start = .ok a ∧ c.offsetAt r.stop = .ok b := by
  obtain ⟨start, hstart, h⟩ := bind_eq_ok_iff.1 h
  obtain ⟨stop, hstop, h⟩ := bind_eq_ok_iff.1 h
  split at h
  · cases h
    exact ⟨hstart, hstop⟩
  · cases h

/-- **An edit with which no annotation comes or goes is passed on as it is**: it puts the same
characters into the range of the document that goes with what it replaces in the cell. This is also
the range that goes with the range of the edit, if it has one. -/
theorem Reachable.handle_changed_narrow (h : Reachable d) {c : Cell}
    (hc : d.cells.cell? uri = some c) {version : Int} (hversion : c.version < version) {e : Edit}
    {a b : Nat} (hoff : editedOffsets c e = .ok (a, b))
    (hflips : d.settings.marks = false ∨ c.text.FlipsNoMark a b e.text) :
    ∃ d' range, d.handle (.changed uri version [e]) =
        (d', .ok (some ⟨d.uri, d.version + 1, [.ranged range e.text]⟩)) ∧
      d.rangeOf ⟨uri, ⟨c.positionAt a, c.positionAt b⟩⟩ = .ok range ∧
      ∀ r new, e = .ranged r new → d.rangeOf ⟨uri, r⟩ = .ok range := by
  obtain ⟨s, rfl⟩ := h.settled.exists_site hc
  obtain ⟨hab, hb⟩ := le_of_editedOffsets hoff
  have ha := Nat.le_trans hab hb
  obtain ⟨d', htold⟩ := s.handle_changed_singleton h.settled hversion hoff
  rw [s.passedOn_eq_of_flipsNoMark ha hb version hflips] at htold
  refine ⟨d', _, htold, ?_, ?_⟩
  · have hstart : s.cell.offsetAt (s.cell.positionAt a) = .ok a :=
      offsetAt_eq_ok_iff.2 (Text.offsetAt?_positionAt ha)
    have hstop : s.cell.offsetAt (s.cell.positionAt b) = .ok b :=
      offsetAt_eq_ok_iff.2 (Text.offsetAt?_positionAt hb)
    exact s.rangeOf_eq hstart hstop hab
  · rintro r new rfl
    obtain ⟨hstart, hstop⟩ := offsetAt_of_editedOffsets_ranged hoff
    exact s.rangeOf_eq hstart hstop hab

/-- A plain line is ended, another is put behind it, and an annotated line is taken away. The line
behind it keeps its annotation, and the rest of the cell is not sent. -/
theorem Reachable.handle_changed_narrow_lines :
    let d := headed.run
      [.opened ⟨"nb-cell:a", "python", 1, "x = 1".toList⟩,
        .opened ⟨"nb-cell:b", "python", 1, "x = 1\n!ls\n%run it".toList⟩]
    let e : Edit := .ranged ⟨⟨0, 5⟩, ⟨2, 0⟩⟩ ['\n', 'y', '\n']
    Reachable d ∧ d.settings.marks = true ∧
      ∃ d', d.handle (.changed "nb-cell:b" 2 [e]) =
        (d', .ok (some ⟨d.uri, d.version + 1, [.ranged ⟨⟨2, 5⟩, ⟨4, 0⟩⟩ ['\n', 'y', '\n']]⟩)) := by
  intro d e
  have hd : Reachable d := reachable_headed.run _
  have hc : d.cells.cell? "nb-cell:b" =
      some ⟨"nb-cell:b", "python", 1, "x = 1\n!ls\n%run it".toList⟩ := by decide +kernel
  have hflips : Text.FlipsNoMark "x = 1\n!ls\n%run it".toList 5 10 ['\n', 'y', '\n'] := by
    refine ⟨by decide +kernel, by decide, ?_, by decide +kernel⟩
    rintro (- | - | - | k) hk
    · decide +kernel
    · decide +kernel
    · decide +kernel
    · cases hk
  have hversion : (1 : Int) < 2 := by decide
  obtain ⟨d', range, htold, -, hrange⟩ :=
    hd.handle_changed_narrow hc hversion (e := e) (a := 5) (b := 10) rfl (.inr hflips)
  have hrange' : d.rangeOf ⟨"nb-cell:b", ⟨⟨0, 5⟩, ⟨2, 0⟩⟩⟩ = .ok ⟨⟨2, 5⟩, ⟨4, 0⟩⟩ := by
    decide +kernel
  obtain rfl := Except.ok.inj ((hrange _ _ rfl).symm.trans hrange')
  exact ⟨hd, by decide +kernel, d', htold⟩

end Document

end CellStitch
