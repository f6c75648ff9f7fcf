import CellStitch.Proofs.Text.Positions
import CellStitch.Rendering
import CellStitch.Span.Layout
import Mathlib.Data.List.Basic
/-!
# What a layout says

A layout is read through its pieces, which know nothing of offsets. A list of pieces has two texts:
the one that stands in the document (`Piece.shown`) and the one that stands in the cell
(`Piece.written`).

* `Piece.written_ofText`: nothing of the cell is lost.
* `Piece.shown_ofText`: the document has the text line by line, with its annotations.
* `Piece.alternates_ofText`: text of the cell comes first, and no two annotations touch. Something
  of its line stands in front of an annotation, because a line that needs one is not blank, and the
  break behind the line stands in front of the next one.
* `Span.shift_place` and `Span.mem_place`: placing pieces only adds offsets to them, so a layout
  that is moved is the layout at the new place, and each span tells where its characters stand.
-/

namespace CellStitch

/-! ### Joining lines -/

namespace Text

/-- A line stands in front of the others with a break between them. -/
theorem unlines_cons (l : Text) {ls : List Text} (h : ls ≠ []) :
    unlines (l :: ls) = l ++ '\n' :: unlines ls := by
  cases ls with
  | nil => exact absurd rfl h
  | cons l' ls => rfl

/-- Lines in two lists are joined by one more break. -/
theorem unlines_append {ls ls' : List Text} (h : ls ≠ []) (h' : ls' ≠ []) :
    unlines (ls ++ ls') = unlines ls ++ '\n' :: unlines ls' := by
  induction ls with
  | nil => exact absurd rfl h
  | cons l ls ih =>
    cases ls with
    | nil => exact unlines_cons l h'
    | cons l' ls =>
      have hne : l' :: ls ≠ [] := List.cons_ne_nil l' ls
      rw [List.cons_append, unlines_cons l (List.append_ne_nil_of_left_ne_nil hne ls'), ih hne,
        unlines_cons l hne, List.append_assoc, List.cons_append]

end Text

namespace Rendering

/-- **A break separates what is rendered.** -/
theorem text_append_break (annotate : Bool) (t u : Text) :
    text annotate (t ++ '\n' :: u) = text annotate t ++ '\n' :: text annotate u := by
  rw [text, Text.lines_append_break, List.map_append, Text.unlines_append, text, text]
  · simpa using Text.lines_ne_nil t
  · simpa using Text.lines_ne_nil u

/-- The empty text is rendered as it is: a blank line needs no annotation. -/
theorem text_nil (annotate : Bool) : text annotate [] = [] := by
  simp [text, Text.lines, Text.unlines, Text.joinWith, line, needsSkipMark, Text.trimLeft]

/-- A text that is ended by a break is rendered so too. -/
theorem text_append_break_nil (annotate : Bool) (t : Text) :
    text annotate (t ++ ['\n']) = text annotate t ++ ['\n'] := by
  rw [text_append_break, text_nil]

end Rendering

/-! ### Pieces -/

namespace Piece

/-- The characters of pieces, as the document has them. -/
def shown (pieces : List Piece) : Text := pieces.flatMap text

/-- The characters of the verbatim pieces, as the cell has them. -/
def written : List Piece → Text
  | [] => []
  | verbatim t :: pieces => t ++ written pieces
  | injected _ :: pieces => written pieces

@[simp] theorem shown_nil : shown [] = [] := rfl

@[simp] theorem shown_cons (p : Piece) (pieces : List Piece) :
    shown (p :: pieces) = p.text ++ shown pieces := rfl

@[simp] theorem written_nil : written [] = [] := rfl

@[simp] theorem written_verbatim (t : Text) (pieces : List Piece) :
    written (verbatim t :: pieces) = t ++ written pieces := rfl

@[simp] theorem written_injected (t : Text) (pieces : List Piece) :
    written (injected t :: pieces) = written pieces := rfl

/-- What the cell has, the document has too. -/
theorem length_written_le (pieces : List Piece) :
    (written pieces).length ≤ (shown pieces).length := by
  induction pieces with
  | nil => exact Nat.le_refl 0
  | cons p pieces ih =>
    cases p <;> simp only [shown_cons, text, written_verbatim, written_injected,
      List.length_append] <;> omega

/-- Pieces with text of the cell are some pieces. -/
theorem ne_nil_of_written_ne_nil {pieces : List Piece} (h : written pieces ≠ []) : pieces ≠ [] := by
  rintro rfl
  exact h rfl

/-- Text that is put in front is shown in front. -/
@[simp] theorem shown_write (t : Text) (pieces : List Piece) :
    shown (write t pieces) = t ++ shown pieces := by
  cases t with
  | nil => rfl
  | cons c t =>
    cases pieces with
    | nil => rfl
    | cons p pieces => cases p <;> simp [write, text]

/-- Text that is put in front is text of the cell. -/
@[simp] theorem written_write (t : Text) (pieces : List Piece) :
    written (write t pieces) = t ++ written pieces := by
  cases t with
  | nil => rfl
  | cons c t =>
    cases pieces with
    | nil => rfl
    | cons p pieces => cases p <;> simp [write]

/-- Nothing of a line is lost when it is cut for its annotation. -/
theorem cutLine_append (line : Text) : (cutLine line).1 ++ (cutLine line).2 = line := by
  unfold cutLine
  split
  · rename_i h
    have hlast : line.getLast? = some '\r' := by simpa [Text.endsWith] using h
    exact List.dropLast_append_getLast? _ hlast
  · exact List.append_nil line

/-- A line in front of pieces is text of the cell, and its annotation is not. -/
@[simp] theorem written_writeLine (annotate : Bool) (line : Text) (pieces : List Piece) :
    written (writeLine annotate line pieces) = line ++ written pieces := by
  unfold writeLine
  split
  · rw [written_write, written_injected, written_write, ← List.append_assoc, cutLine_append]
  · exact written_write line pieces

/-- A line in front of pieces is shown with its annotation. -/
@[simp] theorem shown_writeLine (annotate : Bool) (line : Text) (pieces : List Piece) :
    shown (writeLine annotate line pieces) = Rendering.line annotate line ++ shown pieces := by
  unfold writeLine Rendering.line
  split
  · rw [shown_write, shown_cons, shown_write, Rendering.markLine, cutLine]
    split <;> simp [text]
  · exact shown_write line pieces

/-- A line that is not the last one has its break behind it. -/
theorem ofLines_cons (annotate : Bool) (line : Text) {ls : List Text} (h : ls ≠ []) :
    ofLines annotate (line :: ls) =
      writeLine annotate line (write ['\n'] (ofLines annotate ls)) := by
  cases ls with
  | nil => exact absurd rfl h
  | cons l ls => rfl

/-- The text of the cell is all lines with breaks between them. -/
theorem written_ofLines (annotate : Bool) (ls : List Text) :
    written (ofLines annotate ls) = Text.unlines ls := by
  induction ls with
  | nil => rfl
  | cons l ls ih =>
    by_cases hls : ls = []
    · subst hls
      simp [ofLines, Text.unlines, Text.joinWith]
    · rw [ofLines_cons annotate l hls, written_writeLine, written_write, ih,
        Text.unlines_cons l hls]
      rfl

/-- The document shows each line with its annotation, and breaks between them. -/
theorem shown_ofLines (annotate : Bool) (ls : List Text) :
    shown (ofLines annotate ls) = Text.unlines (ls.map (Rendering.line annotate)) := by
  induction ls with
  | nil => rfl
  | cons l ls ih =>
    by_cases hls : ls = []
    · subst hls
      simp [ofLines, Text.unlines, Text.joinWith]
    · have hne : ls.map (Rendering.line annotate) ≠ [] := by simpa using hls
      rw [ofLines_cons annotate l hls, shown_writeLine, shown_write, ih, List.map_cons,
        Text.unlines_cons _ hne]
      rfl

/-- **Nothing of a cell is lost** when its text is cut into pieces. -/
theorem written_ofText (annotate : Bool) (t : Text) : written (ofText annotate t) = t := by
  rw [ofText, written_ofLines, Text.unlines_lines]

/-- **The pieces of a text show it line by line.** -/
theorem shown_ofText (annotate : Bool) (t : Text) :
    shown (ofText annotate t) = Rendering.text annotate t := by
  rw [ofText, shown_ofLines, Rendering.text]

/-- A header is no text of the cell. -/
@[simp] theorem written_withHeader (header : Text) (pieces : List Piece) :
    written (withHeader header pieces) = written pieces := by
  unfold withHeader
  split <;> rfl

/-- A header is shown in front. -/
@[simp] theorem shown_withHeader (header : Text) (pieces : List Piece) :
    shown (withHeader header pieces) = header ++ shown pieces := by
  unfold withHeader
  split
  · rename_i h
    rw [List.isEmpty_iff.1 h, List.nil_append]
  · rfl

/-! ### Pieces in turn -/

/-- Something of a line stands in front of its annotation, for a blank line needs none. -/
theorem cutLine_fst_ne_nil {line : Text} (h : needsSkipMark line = true) :
    (cutLine line).1 ≠ [] := by
  intro hnil
  have hline := cutLine_append line
  rw [hnil, List.nil_append] at hline
  -- a carriage return alone is blank
  unfold cutLine at hline
  split at hline <;> (rw [← hline] at h; cases h)

/-- Pieces that begin with text of the cell, and where text of the cell and annotations take turns.
No text is empty. -/
inductive Alternates : List Piece → Prop where
  | nil : Alternates []
  | last {t : Text} (ht : t ≠ []) : Alternates [verbatim t]
  | marked {t : Text} {pieces : List Piece} (ht : t ≠ []) (h : Alternates pieces) :
    Alternates (verbatim t :: injected skipMark :: pieces)

namespace Alternates

variable {pieces : List Piece}

/-- Text in front of pieces joins the text that they begin with. -/
theorem write (h : Alternates pieces) (t : Text) : Alternates (Piece.write t pieces) := by
  cases t with
  | nil => exact h
  | cons c t =>
    have hne : ∀ u, c :: t ++ u ≠ [] := fun u ↦ List.cons_ne_nil c (t ++ u)
    cases h with
    | nil => exact .last (List.cons_ne_nil c t)
    | last ht => exact .last (hne _)
    | marked ht h => exact .marked (hne _) h

/-- **One line in front of pieces.** Something of the line stands in front of its annotation. -/
theorem writeLine (h : Alternates pieces) (annotate : Bool) (line : Text) :
    Alternates (Piece.writeLine annotate line pieces) := by
  rw [Piece.writeLine]
  split
  · rename_i hmark
    have hne := cutLine_fst_ne_nil (Bool.and_eq_true_iff.1 hmark).2
    obtain ⟨c, t, hcut⟩ := List.exists_cons_of_ne_nil hne
    rw [hcut]
    exact .marked (List.cons_ne_nil c t) (h.write _)
  · exact h.write line

/-- No piece is empty where pieces take turns. -/
theorem text_ne_nil (h : Alternates pieces) {p : Piece} (hp : p ∈ pieces) : p.text ≠ [] := by
  induction h with
  | nil => cases hp
  | last ht =>
    rw [List.mem_singleton.1 hp]
    exact ht
  | marked ht _ ih =>
    rcases List.mem_cons.1 hp with rfl | hp
    · exact ht
    · rcases List.mem_cons.1 hp with rfl | hp
      · exact List.cons_ne_nil _ _
      · exact ih hp

/-- A header that has a piece is not empty either. -/
theorem text_ne_nil_of_mem_withHeader (h : Alternates pieces) {header : Text} {p : Piece}
    (hp : p ∈ withHeader header pieces) : p.text ≠ [] := by
  unfold withHeader at hp
  split at hp
  · exact h.text_ne_nil hp
  · rename_i hheader
    rcases List.mem_cons.1 hp with rfl | hp
    · exact fun hnil ↦ hheader (List.isEmpty_iff.2 hnil)
    · exact h.text_ne_nil hp

end Alternates

/-- The lines of a text make pieces that take turns, by induction from the last line. -/
theorem alternates_ofLines (annotate : Bool) (ls : List Text) :
    Alternates (ofLines annotate ls) := by
  induction ls with
  | nil => exact .nil
  | cons line ls ih =>
    rcases Decidable.em (ls = []) with rfl | hls
    · exact Alternates.nil.writeLine annotate line
    · rw [ofLines_cons annotate line hls]
      exact (ih.write ['\n']).writeLine annotate line

/-- **Text of the cell and annotations take turns**, and the text of the cell comes first. -/
theorem alternates_ofText (annotate : Bool) (t : Text) : Alternates (ofText annotate t) :=
  alternates_ofLines annotate t.lines

/-- **The text of a cell begins with text of the cell**, and never with an annotation. -/
theorem exists_ofText_eq (annotate : Bool) (t : Text) :
    ∃ u rest, ofText annotate (t ++ ['\n']) = verbatim u :: rest := by
  have hpieces := alternates_ofText annotate (t ++ ['\n'])
  have hwritten := written_ofText annotate (t ++ ['\n'])
  generalize ofText annotate (t ++ ['\n']) = pieces at hpieces hwritten ⊢
  cases hpieces with
  | nil => exact absurd hwritten.symm (List.append_ne_nil_of_right_ne_nil t (by simp))
  | last _ => exact ⟨_, _, rfl⟩
  | marked _ _ => exact ⟨_, _, rfl⟩

end Piece

/-! ### Placed pieces -/

/-- The number of characters by which a piece advances in the cell. -/
def Piece.advance : Piece → Nat
  | verbatim t => t.length
  | injected _ => 0

/-- A piece with its offsets. -/
def Piece.placed (uri : String) (offset real : Int) (p : Piece) : Span :=
  ⟨uri, p.text, offset, offset + p.text.length, real, real + p.advance,
    match p with
    | verbatim _ => true
    | injected _ => false⟩

namespace Span

open Piece (shown written)

variable (uri : String)

/-- Placing pieces goes piece by piece, whatever their kind. -/
theorem place_cons (offset real : Int) (p : Piece) (pieces : List Piece) :
    place uri offset real (p :: pieces) = p.placed uri offset real ::
      place uri (offset + p.text.length) (real + p.advance) pieces := by
  cases p <;> simp [place, Piece.placed, Piece.text, Piece.advance]

/-- Placed pieces show what the pieces show. -/
@[simp] theorem textOf_place (offset real : Int) (pieces : List Piece) :
    textOf (place uri offset real pieces) = shown pieces := by
  induction pieces generalizing offset real with
  | nil => rfl
  | cons p pieces ih =>
    rw [place_cons, Piece.shown_cons, ← ih]
    rfl

/-- Where there are pieces there are spans. -/
theorem place_ne_nil (offset real : Int) {pieces : List Piece} (h : pieces ≠ []) :
    place uri offset real pieces ≠ [] := by
  cases pieces with
  | nil => exact absurd rfl h
  | cons p pieces => rw [place_cons]; exact List.cons_ne_nil _ _

/-- Placed pieces start where they are put. -/
theorem startOf_place (offset real : Int) {pieces : List Piece} (h : pieces ≠ []) :
    startOf (place uri offset real pieces) = offset := by
  cases pieces with
  | nil => exact absurd rfl h
  | cons p pieces => rw [place_cons]; rfl

/-- Where spans stop, the last of them does. -/
theorem stopOf_cons (s : Span) {spans : List Span} (h : spans ≠ []) :
    stopOf (s :: spans) = stopOf spans := by
  cases spans with
  | nil => exact absurd rfl h
  | cons s' spans => simp [stopOf, List.getLast?_cons_cons]

/-- Placed pieces stop behind all that they show. -/
theorem stopOf_place (offset real : Int) {pieces : List Piece} (h : pieces ≠ []) :
    stopOf (place uri offset real pieces) = offset + (shown pieces).length := by
  induction pieces generalizing offset real with
  | nil => exact absurd rfl h
  | cons p pieces ih =>
    rw [place_cons, Piece.shown_cons, List.length_append]
    by_cases hp : pieces = []
    · subst hp
      simp [place, stopOf, Piece.placed]
    · rw [stopOf_cons _ (place_ne_nil uri _ _ hp), ih _ _ hp]
      omega

/-- **A layout that is moved is the layout at the new place.** -/
theorem shift_place (offset real delta : Int) (pieces : List Piece) :
    (place uri offset real pieces).map (·.shift delta) =
      place uri (offset + delta) real pieces := by
  induction pieces generalizing offset real with
  | nil => rfl
  | cons p pieces ih =>
    have hcomm : offset + p.text.length + delta = offset + delta + p.text.length := by omega
    rw [place_cons, place_cons, List.map_cons, ih, hcomm]
    congr 1
    simp only [shift, Piece.placed, hcomm]

/-- Each span of a layout shows a part of what all of it shows, and tells where that stands. -/
theorem mem_place {offset real : Int} {pieces : List Piece} {s : Span}
    (h : s ∈ place uri offset real pieces) :
    ∃ front back, shown pieces = front ++ s.text ++ back ∧
      s.start = offset + front.length ∧ s.stop = s.start + s.text.length := by
  induction pieces generalizing offset real with
  | nil => simp [place] at h
  | cons p pieces ih =>
    rw [place_cons] at h
    rcases List.mem_cons.1 h with rfl | h
    · exact ⟨[], shown pieces, rfl, by simp [Piece.placed], rfl⟩
    · obtain ⟨front, back, hshown, hstart, hstop⟩ := ih h
      refine ⟨p.text ++ front, back, by rw [Piece.shown_cons, hshown]; simp, ?_, hstop⟩
      rw [hstart, List.length_append]
      omega

end Span

end CellStitch
