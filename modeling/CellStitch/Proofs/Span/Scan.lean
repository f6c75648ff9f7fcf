import CellStitch.Proofs.Span.Layout
import CellStitch.Span.Scan
/-!
# One pass makes the layout

The spans that one pass over the lines of a text makes are those of its layout
(`Span.scan_eq_layOut`). On the way, what is made stands for the pieces that are still to come
(`Span.Pass.StandsFor`): the spans so far, and behind them the placed pieces of the rest, which
begin with the text that has no span yet. Every line keeps this (`Span.Pass.standsFor_line`), and at
the end nothing is to come.
-/

namespace CellStitch

/-! ### Parts of a text -/

namespace Text

variable {t : Text} {i j k : Nat}

/-- Two parts of a text that touch are one part. -/
theorem slice_append_slice (hij : i ≤ j) (hjk : j ≤ k) (hk : k ≤ t.length) :
    t.slice i j ++ t.slice j k = t.slice i k := by
  have hle : i ≤ (t.take j).length := by rw [List.length_take]; omega
  have hfront : t.take j ++ (t.take k).drop j = t.take k := by
    have hmin : (t.take k).take j = t.take j := by rw [List.take_take, Nat.min_eq_left hjk]
    rw [← hmin, List.take_append_drop]
  calc t.slice i j ++ t.slice j k
      = (t.take j ++ (t.take k).drop j).drop i := (List.drop_append_of_le_length hle).symm
    _ = t.slice i k := by rw [hfront, slice]

@[simp] theorem slice_self (t : Text) (i : Nat) : t.slice i i = [] := by
  rw [slice, List.drop_eq_nil_iff, List.length_take]
  exact Nat.min_le_left _ _

theorem length_slice (hj : j ≤ t.length) : (t.slice i j).length = j - i := by
  rw [slice, List.length_drop, List.length_take_of_le hj]

/-- The part that stands behind an offset. -/
theorem slice_of_drop {part rest : Text} (h : t.drop i = part ++ rest) :
    t.slice i (i + part.length) = part := by
  rw [slice, List.drop_take, h]
  simp

end Text

/-! ### Text in front of pieces -/

namespace Piece

/-- Text that is put in front of pieces in two parts is put there at once. -/
theorem write_write (t u : Text) (pieces : List Piece) :
    write t (write u pieces) = write (t ++ u) pieces := by
  rcases t with - | ⟨c, t⟩
  · rfl
  · rcases u with - | ⟨d, u⟩
    · simp [write]
    · rcases pieces with - | ⟨⟨v⟩ | ⟨v⟩, pieces⟩ <;> simp [write]

end Piece

namespace Span

variable {uri : String} {text : Text} {real : Int} {annotate : Bool}

/-- Text in front of pieces that do not begin with text of the cell has a span of its own, if there
is any. -/
theorem place_write {pieces : List Piece} (h : ∀ u rest, pieces ≠ .verbatim u :: rest)
    (offset real : Int) (t : Text) : place uri offset real (Piece.write t pieces) =
      (if t.isEmpty then [] else [ofCell uri t offset real]) ++
        place uri (offset + t.length) (real + t.length) pieces := by
  rcases t with - | ⟨c, t⟩
  · simp [Piece.write]
  · rcases pieces with - | ⟨⟨v⟩ | ⟨v⟩, pieces⟩
    · rfl
    · exact absurd rfl (h v pieces)
    · rfl

namespace Pass

variable {x : Pass} {stop : Nat} {pieces : List Piece} {spans : List Span}

/-! ### What is to come -/

theorem runStart_flush (uri : String) (text : Text) (real : Int) (x : Pass) (stop : Nat) :
    (x.flush uri text real stop).runStart = stop := by
  unfold flush
  dsimp only
  split <;> rfl

/-- What is made on the way stands for all spans: they are the ones that are made and, behind them,
those of pieces that are still to come. These begin with the text up to an offset that has no span
yet. -/
structure StandsFor (uri : String) (text : Text) (real : Int) (spans : List Span) (x : Pass)
    (stop : Nat) (pieces : List Piece) : Prop where
  runStart_le : x.runStart ≤ stop
  stop_le : stop ≤ text.length
  eq : spans = x.spans ++
    place uri x.offset (real + x.runStart) (Piece.write (text.slice x.runStart stop) pieces)

namespace StandsFor

/-- Where the line begins plays no part in this. -/
theorem withLineStart (h : StandsFor uri text real spans x stop pieces) (n : Nat) :
    StandsFor uri text real spans { x with lineStart := n } stop pieces :=
  ⟨h.runStart_le, h.stop_le, h.eq⟩

/-- Text that is passed over waits for its span. -/
theorem extend {part rest : Text}
    (h : StandsFor uri text real spans x stop (Piece.write part pieces))
    (hdrop : text.drop stop = part ++ rest) :
    StandsFor uri text real spans x (stop + part.length) pieces := by
  have hle : stop + part.length ≤ text.length := by
    have hlength := congrArg List.length hdrop
    rw [List.length_drop, List.length_append] at hlength
    have hstop := h.stop_le
    omega
  have hjoin := Text.slice_append_slice h.runStart_le (Nat.le_add_right stop part.length) hle
  rw [Text.slice_of_drop hdrop] at hjoin
  exact ⟨Nat.le_add_right_of_le h.runStart_le, hle, by rw [h.eq, Piece.write_write, hjoin]⟩

/-- **Text that waited gets its span** in front of pieces that begin with no text of the cell. -/
theorem flush (h : StandsFor uri text real spans x stop pieces)
    (hpieces : ∀ u rest, pieces ≠ .verbatim u :: rest) :
    StandsFor uri text real spans (x.flush uri text real stop) stop pieces := by
  have hrun := runStart_flush uri text real x stop
  refine ⟨hrun.le, h.stop_le, ?_⟩
  have hreal : real + x.runStart + ((text.slice x.runStart stop).length : Nat) = real + stop := by
    have hlength := Text.length_slice (i := x.runStart) h.stop_le
    have hle := h.runStart_le
    omega
  rw [h.eq, place_write hpieces, hreal, hrun, Text.slice_self, Piece.write, Pass.flush]
  rcases hchunk : text.slice x.runStart stop with - | ⟨c, chunk⟩
  · simp
  · simp

/-- An annotation is made where it is due. -/
theorem mark (h : StandsFor uri text real spans x stop (.injected skipMark :: pieces))
    (hrun : x.runStart = stop) :
    StandsFor uri text real spans (x.mark uri real stop) stop pieces := by
  refine ⟨h.runStart_le, h.stop_le, ?_⟩
  rw [h.eq, Pass.mark]
  simp only [hrun, Text.slice_self, Piece.write, place, ofDocument, List.append_assoc,
    List.singleton_append]

end StandsFor

/-! ### One line after another -/

/-- The annotation stands behind the first part of its line. -/
theorem insertAt_eq (l : Text) (lineStart : Nat) :
    (if l.endsWith '\r' then lineStart + l.length - 1 else lineStart + l.length) =
      lineStart + (Piece.cutLine l).1.length := by
  have hlength := congrArg List.length (Piece.cutLine_append l)
  unfold Piece.cutLine at hlength ⊢
  split at hlength
  · rw [if_pos ‹_›, if_pos ‹_›]
    simp only [List.length_append, List.length_singleton] at hlength
    dsimp only
    omega
  · rw [if_neg ‹_›, if_neg ‹_›]

/-- **Every line keeps what is stood for.** Behind it the pieces of the other lines are to come. -/
theorem standsFor_line {l rest : Text}
    (h : StandsFor uri text real spans x x.lineStart (Piece.writeLine annotate l pieces))
    (hdrop : text.drop x.lineStart = l ++ rest) :
    StandsFor uri text real spans (x.line uri text real annotate l) (x.lineStart + l.length)
      pieces := by
  unfold Piece.writeLine at h
  by_cases hmark : (annotate && needsSkipMark l) = true
  · rw [if_pos hmark] at h
    -- the line in two parts, with the annotation between them
    have hparts := Piece.cutLine_append l
    have hinsert := insertAt_eq l x.lineStart
    set front := (Piece.cutLine l).1
    set back := (Piece.cutLine l).2
    rw [← hparts, List.append_assoc] at hdrop
    have hback : text.drop (x.lineStart + front.length) = back ++ rest := by
      rw [← List.drop_drop, hdrop, List.drop_left]
    have hmarked := ((h.extend hdrop).flush (by simp)).mark (runStart_flush ..)
    have hwhole := hmarked.extend hback
    rw [Nat.add_assoc, ← List.length_append, hparts] at hwhole
    simp only [line, hmark, if_true, hinsert]
    exact hwhole.withLineStart _
  · rw [if_neg hmark] at h
    have hwhole := h.extend hdrop
    simp only [line, if_neg hmark]
    exact hwhole.withLineStart _

/-- **The lines of a text, one after another**, are made into all that the pass stood for when it
came to the first of them. -/
theorem finish_foldl_line {ls : List Text} (hls : ls ≠ [])
    (h : StandsFor uri text real spans x x.lineStart (Piece.ofLines annotate ls))
    (hdrop : text.drop x.lineStart = Text.unlines ls) :
    (ls.foldl (Pass.line uri text real annotate) x).finish uri text real = spans := by
  induction ls generalizing x with
  | nil => exact absurd rfl hls
  | cons l ls ih =>
    rw [List.foldl_cons]
    rcases Decidable.em (ls = []) with rfl | hmore
    · have hdrop' : text.drop x.lineStart = l ++ [] := by
        rw [hdrop, List.append_nil, Text.unlines, Text.joinWith]
      have hline := standsFor_line h hdrop'
      have hend : x.lineStart + l.length = text.length := by
        have hlength := congrArg List.length hdrop'
        rw [List.length_drop, List.append_nil] at hlength
        have hle := h.stop_le
        omega
      rw [hend] at hline
      have hall := (hline.flush (by simp)).eq
      rw [runStart_flush, Text.slice_self, Piece.write, place, List.append_nil] at hall
      exact hall.symm
    · rw [Piece.ofLines_cons annotate l hmore] at h
      rw [Text.unlines_cons l hmore] at hdrop
      have hbreak : text.drop (x.lineStart + l.length) = ['\n'] ++ Text.unlines ls := by
        rw [← List.drop_drop, hdrop, List.drop_left]
        rfl
      refine ih hmore ((standsFor_line h hdrop).extend hbreak) ?_
      exact (List.drop_drop ..).symm.trans (by rw [hbreak]; rfl)

/-- At the start all pieces are to come but the header. -/
theorem standsFor_start (uri : String) (text : Text) (offset real : Int) (header : Text)
    (annotate : Bool) :
    StandsFor uri text real (layOut uri text offset real header annotate)
      (start uri offset real header) (start uri offset real header).lineStart
      (Piece.ofText annotate text) := by
  unfold start
  split
  · rename_i hheader
    refine ⟨Nat.le_refl 0, Nat.zero_le _, ?_⟩
    simp [layOut, Piece.withHeader, hheader, Piece.write]
  · rename_i hheader
    refine ⟨Nat.le_refl 0, Nat.zero_le _, ?_⟩
    simp [layOut, Piece.withHeader, hheader, Piece.write, place, ofDocument]

end Pass

/-- **One pass over the lines of a text makes its layout.** -/
theorem scan_eq_layOut (uri : String) (text : Text) (offset real : Int) (header : Text)
    (annotate : Bool) :
    scan uri text offset real header annotate = layOut uri text offset real header annotate := by
  refine Pass.finish_foldl_line (Text.lines_ne_nil text)
    (Pass.standsFor_start uri text offset real header annotate) ?_
  have hstart : (Pass.start uri offset real header).lineStart = 0 := by
    unfold Pass.start
    split <;> rfl
  rw [hstart, List.drop_zero, Text.unlines_lines]

end Span

end CellStitch
