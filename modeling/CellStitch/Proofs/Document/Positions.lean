import CellStitch.Proofs.Document.Step
import CellStitch.Proofs.Text.Insertion
/-!
# Positions, offsets and lines of a document

In a document every offset has a position of its own, and the lines, each with its break, are the
whole text (`Reachable.lineOffsets`).

A document answers from its line starts, takes the end of a line from the start of the next one, and
has no line for what stands behind the last break. All of this is right because its text is made of
whole lines (`Settled.wholeLines_text`): the lines of the text are then those of the document and an
empty one behind them.
-/

namespace CellStitch

/-! ### Texts that are made of whole lines -/

namespace Text

/-- Lines with their breaks stand in front of the lines behind them. -/
theorem unlines_append_eq (above : List Text) {ls : List Text} (h : ls ≠ []) :
    unlines (above ++ ls) = above.flatMap (· ++ ['\n']) ++ unlines ls := by
  induction above with
  | nil => rfl
  | cons l above ih =>
    rw [List.cons_append, unlines_cons l (List.append_ne_nil_of_right_ne_nil above h), ih,
      List.flatMap_cons, List.append_assoc, List.append_assoc, List.singleton_append]

theorem length_flatMap_break (ls : List Text) :
    (ls.flatMap (· ++ ['\n'])).length = lengthWithBreaks ls := by
  induction ls with
  | nil => rfl
  | cons l ls ih =>
    rw [List.flatMap_cons, List.length_append, List.length_append, ih, lengthWithBreaks]
    rfl

/-- **A line is found at its offset.** -/
theorem take_drop_of_line {t line : Text} {l : Nat} (h : t.lines[l]? = some line) :
    (t.drop (lengthWithBreaks (t.lines.take l))).take line.length = line := by
  obtain ⟨hlt, hget⟩ := List.getElem?_eq_some_iff.1 h
  have hsplit : t = (t.lines.take l).flatMap (· ++ ['\n']) ++ unlines (t.lines.drop l) := by
    rw [← unlines_append_eq _ (List.drop_eq_nil_iff.not.2 (Nat.not_le_of_lt hlt)),
      List.take_append_drop, unlines_lines]
  have hbelow : ∃ below, unlines (t.lines.drop l) = line ++ below := by
    rw [List.drop_eq_getElem_cons hlt, hget]
    rcases t.lines.drop (l + 1) with - | ⟨next, rest⟩
    · exact ⟨[], (List.append_nil line).symm⟩
    · exact ⟨_, unlines_cons line (List.cons_ne_nil next rest)⟩
  obtain ⟨below, hbelow⟩ := hbelow
  rw [hbelow] at hsplit
  calc (t.drop (lengthWithBreaks (t.lines.take l))).take line.length
      = (((t.lines.take l).flatMap (· ++ ['\n']) ++ (line ++ below)).drop
          ((t.lines.take l).flatMap (· ++ ['\n'])).length).take line.length := by
        rw [← hsplit, length_flatMap_break]
    _ = line := by rw [List.drop_left, List.take_left]

/-- **Whole lines are their text**, each with its break. -/
theorem WholeLines.flatMap_dropLast {t : Text} (h : t.WholeLines) :
    (lines t).dropLast.flatMap (· ++ ['\n']) = t := by
  have hlines := h.lines_append []
  rw [List.append_nil] at hlines
  have hjoin := unlines_lines t
  rw [hlines, unlines_append_eq _ (lines_ne_nil [])] at hjoin
  rwa [show unlines (lines []) = [] from rfl, List.append_nil] at hjoin

/-- Positions stand in the order of their offsets, also behind the ends of lines. -/
theorem offsetAt?_mono {t : Text} {p q : Position} {a b : Nat} (hp : t.offsetAt? p = some a)
    (hq : t.offsetAt? q = some b) (hpq : p ≤ q) : a ≤ b := by
  obtain ⟨ha, hpos⟩ := positionAt_of_offsetAt? hp
  obtain ⟨hb, hpos'⟩ := positionAt_of_offsetAt? hq
  rw [← positionAt_le_iff ha hb, hpos, hpos', Position.le_iff]
  rcases Position.le_iff.1 hpq with hlt | ⟨heq, hle⟩
  · exact .inl hlt
  · refine .inr ⟨heq, ?_⟩
    rw [onLine, onLine, heq]
    show min p.character _ ≤ min q.character _
    omega

end Text

namespace Document

variable {d : Document}

/-! ### Lines -/

namespace Settled

variable (hd : d.Settled)
include hd

theorem wholeLines_text : d.text.WholeLines := by
  rw [hd.text_eq]
  exact (ends_of_spansFrom hd.spans_eq).imp And.right And.right

theorem length_lines_text : d.text.lines.length = d.lineCount + 1 := by
  have hpos := List.length_pos_iff.2 d.text.lines_ne_nil
  have hcount := hd.lineCount_eq
  omega

/-- **The lines of a document** are those of its text. -/
theorem lineAt_eq {n : Nat} {line : Text} (hn : n < d.lineCount)
    (h : d.text.lines[n]? = some line) :
    d.lineAt n = .ok ⟨n, line, ⟨⟨n, 0⟩, ⟨n, line.length⟩⟩⟩ := by
  have hlt : n < d.text.lines.length := by
    rw [hd.length_lines_text]
    exact Nat.lt_succ_of_lt hn
  have hin : 0 ≤ (n : Int) ∧ (n : Int) < d.lineCount := by omega
  simp only [lineAt, if_pos hin, Int.toNat_natCast, hd.lineStart_eq hlt, hd.lineLength_eq hn h,
    Text.take_drop_of_line h]

end Settled

/-- The lines of a document, one for each of its text but the last one, which is empty. -/
def textLines (d : Document) : List Line :=
  d.text.lines.dropLast.mapIdx fun n line ↦ ⟨n, line, ⟨⟨n, 0⟩, ⟨n, line.length⟩⟩⟩

theorem map_text_textLines (d : Document) : d.textLines.map Line.text = d.text.lines.dropLast := by
  refine List.ext_getElem? fun n ↦ ?_
  rw [textLines, List.getElem?_map, List.getElem?_mapIdx]
  rcases d.text.lines.dropLast[n]? with - | line <;> rfl

/-- What positions, offsets and lines of a document have to do with one another. -/
structure LineOffsets (d : Document) : Prop where
  /-- An offset is found again from its position. -/
  offsetAt_positionAt : ∀ o ≤ d.text.length, d.offsetAt (d.positionAt o) = .ok o
  /-- A position is found again from its offset, with its character cut to the line. -/
  positionAt_offsetAt : ∀ p : Position, p.line < d.lineCount → ∃ line o,
    d.lineAt p.line = .ok line ∧ d.offsetAt p = .ok o ∧
      d.positionAt o = ⟨p.line, min p.character line.text.length⟩
  /-- Positions stand in the order of their offsets. -/
  offsetAt_mono : ∀ p q : Position, p ≤ q → q.line ≤ d.lineCount →
    ∃ a b, d.offsetAt p = .ok a ∧ d.offsetAt q = .ok b ∧ a ≤ b
  /-- The lines hold no break, and each with its break they are the text. -/
  exists_lines : ∃ lines : List Line, lines.length = d.lineCount ∧
    (∀ (n : Nat) (line : Line), lines[n]? = some line → d.lineAt n = .ok line ∧ '\n' ∉ line.text) ∧
    lines.flatMap (fun line ↦ line.text ++ ['\n']) = d.text

/-- **Positions and offsets of a document** correspond to one another, and its lines are its text. -/
theorem Reachable.lineOffsets (h : Reachable d) : d.LineOffsets := by
  have hd := h.settled
  have hlength := hd.length_lines_text
  constructor
  · intro o ho
    rw [hd.positionAt_eq ho]
    exact hd.offsetAt_eq (Text.offsetAt?_positionAt ho)
  · intro p hp
    have hlt : p.line < d.text.lines.length := by omega
    obtain ⟨o, ho⟩ := Text.exists_offsetAt?_of_lt hlt
    obtain ⟨hle, hpos⟩ := Text.positionAt_of_offsetAt? ho
    refine ⟨_, o, hd.lineAt_eq hp (List.getElem?_eq_getElem hlt), hd.offsetAt_eq ho, ?_⟩
    rw [hd.positionAt_eq hle, hpos, Text.onLine, List.getD_eq_getElem?_getD,
      List.getElem?_eq_getElem hlt, Option.getD_some]
  · intro p q hpq hq
    have hline : p.line ≤ q.line :=
      (Position.le_iff.1 hpq).elim Nat.le_of_lt fun h ↦ Nat.le_of_eq h.1
    obtain ⟨a, ha⟩ := Text.exists_offsetAt?_of_lt (t := d.text) (p := p) (by omega)
    obtain ⟨b, hb⟩ := Text.exists_offsetAt?_of_lt (t := d.text) (p := q) (by omega)
    exact ⟨a, b, hd.offsetAt_eq ha, hd.offsetAt_eq hb, Text.offsetAt?_mono ha hb hpq⟩
  · refine ⟨d.textLines, ?_, ?_, ?_⟩
    · rw [textLines, List.length_mapIdx, List.length_dropLast, hlength, Nat.add_sub_cancel]
    · intro n line hline
      rw [textLines, List.getElem?_mapIdx, Option.map_eq_some_iff] at hline
      obtain ⟨line, hline, rfl⟩ := hline
      rw [List.getElem?_dropLast, Option.ite_none_right_eq_some] at hline
      obtain ⟨hn, hline⟩ := hline
      exact ⟨hd.lineAt_eq (by omega) hline,
        Text.not_mem_of_mem_lines (List.mem_of_getElem? hline)⟩
    · rw [← hd.wholeLines_text.flatMap_dropLast, ← map_text_textLines, List.flatMap_map]

/-- The annotated line is cut where its break stands, and the line behind it is empty. -/
theorem Reachable.lineOffsets_headed :
    let d := headed.run
      [.opened ⟨"nb-cell:a", "python", 1, "x = 1".toList⟩,
        .opened ⟨"nb-cell:b", "python", 1, "!ls\n".toList⟩]
    Reachable d ∧ d.lineCount = 4 ∧ d.offsetAt (d.positionAt 34) = .ok 34 ∧
      (∃ line o, d.lineAt 2 = .ok line ∧ line.text = "!ls # type: ignore".toList ∧
        d.offsetAt ⟨2, 40⟩ = .ok o ∧ d.positionAt o = ⟨2, 18⟩) ∧
      ∃ lines : List Line, lines.length = 4 ∧
        lines.flatMap (fun line ↦ line.text ++ ['\n']) = d.text := by
  intro d
  have hd : Reachable d := reachable_headed.run _
  have hall := hd.lineOffsets
  have hcount : d.lineCount = 4 := by decide +kernel
  obtain ⟨line, o, hline, ho, hpos⟩ := hall.positionAt_offsetAt ⟨2, 40⟩ (by rw [hcount]; decide)
  have htext : (d.lineAt 2).map Line.text = .ok "!ls # type: ignore".toList := by decide +kernel
  have hline' : d.lineAt 2 = .ok line := hline
  rw [hline'] at htext
  obtain htext := Except.ok.inj htext
  rw [htext] at hpos
  obtain ⟨lines, hlength, -, hjoined⟩ := hall.exists_lines
  refine ⟨hd, hcount, hall.offsetAt_positionAt 34 (by decide +kernel), ?_, ?_⟩
  · exact ⟨line, o, hline', htext, ho, hpos⟩
  · exact ⟨lines, hlength.trans hcount, hjoined⟩

end Document

end CellStitch
