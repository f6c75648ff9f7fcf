import CellStitch.Proofs.Document.Mapping
import CellStitch.Proofs.Span.Copies
import CellStitch.Proofs.Text.Order
/-!
# What a range of the document covers in a cell

A range of the document goes to a range of the cell that it starts in, and that range has a
character of the cell exactly if the given one has its copy (`notebookLocationAt_covers`). Where the
ends stand does not matter: in the header, in an annotation, behind the last character of a cell, in
another cell or at the end of the document.

Every offset of the document belongs to one cell (`Site.Covers`), the end of the document to the
last one. In that cell, the way back counts the characters whose copies stand before the offset
(`Piece.lt_toWritten_iff`), so that both ends of the range cut where they should. An end that
belongs to another cell stands behind all copies of the first one (`Site.le_of_covers_ne`).
-/

namespace CellStitch

namespace Document

open Piece (shown written toWritten copyAt)

/-! ### The cell of an offset -/

/-- There is only one place of a cell in a document. -/
theorem Site.eq {d : Document} {uri : String} (s s' : d.Site uri) : s = s' := by
  rcases s with ⟨before, cell, after, front, back, hfirst, hfront, -, hback, -⟩
  rcases s' with ⟨before', cell', after', front', back', hfirst', hfront', -, hback', -⟩
  obtain ⟨rfl, rfl, rfl⟩ := hfirst.unique hfirst'
  obtain rfl : front = front' := Except.ok.inj (hfront.symm.trans hfront')
  obtain rfl : back = back' := Except.ok.inj (hback.symm.trans hback')
  rfl

namespace Site

variable {d : Document} {uri : String} (s : d.Site uri)

/-- An offset belongs to the cell: it stands in what the cell shows, or at the end of the document
behind the last cell. -/
def Covers (o : Nat) : Prop :=
  s.offset ≤ o ∧
    (o < s.offset + (shown s.pieces).length ∨ (o = d.text.length ∧ s.after = []))

variable {s}

theorem cellIndexAt_of_covers {o : Nat} (ho : s.Covers o) : d.cellIndexAt o = s.before.length := by
  obtain ⟨hle, hlt | ⟨-, hlast⟩⟩ := ho
  · exact s.cellIndexAt_eq hle hlt
  · have hnone : s.spansAfter = [] := by
      have hlength := d.length_of_spansFrom_eq_ok s.spansFrom_after
      rw [hlast] at hlength
      exact List.length_eq_zero_iff.1 hlength
    exact s.cellIndexAt_eq_of_lt hle (by simp [hnone])

/-- A position in the stretch of a cell means an offset of that cell. -/
theorem notebookOffsetAt_of_covers {p : Position} {o : Nat} (hp : d.offsetAt p = .ok o)
    (ho : s.Covers o) : d.notebookOffsetAt p =
      .ok (uri, (min (toWritten s.pieces (o - s.offset)) s.cell.text.length : Nat)) :=
  s.notebookOffsetAt_eq hp ho.1 (cellIndexAt_of_covers ho)

/-- An offset that belongs to another cell stands behind the cell, if it does not stand before
it. -/
theorem le_of_covers_ne {uri' : String} {s' : d.Site uri'} (hne : uri' ≠ uri) {o : Nat}
    (ho : s'.Covers o) (hle : s.offset ≤ o) : s.offset + (shown s.pieces).length ≤ o := by
  by_contra hlt
  have hcovers : s.Covers o := ⟨hle, .inl (Nat.lt_of_not_le hlt)⟩
  have hindex := (cellIndexAt_of_covers ho).symm.trans (cellIndexAt_of_covers hcovers)
  have hfound := s'.getElem?_zip
  rw [hindex, s.getElem?_zip] at hfound
  have hcell : s.cell = s'.cell := congrArg Prod.fst (Option.some.inj hfound)
  exact hne (by rw [← s'.uri_cell, ← hcell, s.uri_cell])

end Site

/-- An offset of what cells show lies in what one of them shows. -/
theorem exists_append_of_lt {d : Document} {cells : CellList} {offset : Int}
    {spans : List (List Span)} (h : d.spansFrom offset cells = .ok spans) {o : Nat}
    (ho : o < shownLength spans) : ∃ before c after front, cells = before ++ c :: after ∧
      d.spansFrom offset before = .ok front ∧ shownLength front ≤ o ∧
      o < shownLength front + (shown (d.piecesAt c (offset + shownLength front))).length := by
  induction cells generalizing offset spans o with
  | nil =>
    cases h
    exact absurd ho (Nat.not_lt_zero o)
  | cons c cells ih =>
    obtain ⟨hin, rest, hrest, rfl⟩ := d.spansFrom_cons_eq_ok_iff.1 h
    rw [shownLength_place_cons] at ho
    by_cases hfirst : o < (shown (d.piecesAt c offset)).length
    · exact ⟨[], c, cells, [], rfl, rfl, Nat.zero_le o, by simpa using hfirst⟩
    · obtain ⟨before, c', after, front, rfl, hfront, hle, hlt⟩ :=
        ih hrest (o := o - (shown (d.piecesAt c offset)).length) (by omega)
      refine ⟨c :: before, c', after, _, rfl,
        d.spansFrom_cons_eq_ok_iff.2 ⟨hin, front, hfront, rfl⟩, ?_, ?_⟩
      · rw [shownLength_place_cons]
        omega
      · rw [Int.add_assoc, ← Int.natCast_add, ← shownLength_place_cons c.uri offset 0] at hlt
        rw [shownLength_place_cons] at hlt ⊢
        omega

/-- Where no two cells share a URI, each of them is the first one with its own. -/
theorem firstAt_of_nodup {d : Document} (h : d.cellUris.Nodup) {before after : CellList} {c : Cell}
    (hcells : d.cells = before ++ c :: after) : d.cells.FirstAt c.uri before c after := by
  refine ⟨hcells, rfl, ?_⟩
  intro x hx
  rw [cellUris, hcells, List.map_append, List.map_cons, List.nodup_append] at h
  exact h.2.2 x.uri (List.mem_map_of_mem hx) c.uri List.mem_cons_self

/-- **Every offset belongs to a cell**, if there are cells. -/
theorem Settled.exists_covers {d : Document} (hd : d.Settled) (hcells : d.cells ≠ [])
    (hdistinct : d.cellUris.Nodup) {o : Nat} (ho : o ≤ d.text.length) :
    ∃ uri, ∃ s : d.Site uri, s.Covers o := by
  rcases Nat.lt_or_eq_of_le ho with hlt | rfl
  · rw [hd.text_eq] at hlt
    obtain ⟨before, c, after, front, hsplit, hfront, hle, hlt⟩ :=
      exists_append_of_lt hd.spans_eq hlt
    obtain ⟨s, rfl, hcell, -⟩ := hd.exists_site_of_firstAt (firstAt_of_nodup hdistinct hsplit)
    obtain rfl : s.spansBefore = front := Except.ok.inj (s.spansFrom_before.symm.trans hfront)
    have hpieces : s.pieces = d.piecesAt c (0 + shownLength s.spansBefore) := by
      rw [Site.pieces, hcell, Int.zero_add]
      rfl
    exact ⟨c.uri, s, hle, .inl (by rwa [hpieces])⟩
  · have hsplit := (List.dropLast_append_getLast hcells).symm
    obtain ⟨s, -, -, hlast⟩ := hd.exists_site_of_firstAt (firstAt_of_nodup hdistinct hsplit)
    refine ⟨_, s, ?_, .inr ⟨rfl, hlast⟩⟩
    rw [s.text_eq hd, List.length_append, List.length_append, s.length_front]
    omega

/-! ### The copies of characters -/

namespace Site

variable {d : Document} {uri : String} (s : d.Site uri) {k : Nat}

theorem lt_length_written (hk : k < s.cell.text.length) : k < (written s.pieces).length := by
  rw [s.written_pieces, List.length_append]
  exact Nat.lt_add_right _ hk

/-- The copy of a character is found among the spans of its cell. -/
theorem copy?_spans (hk : k < s.cell.text.length) :
    Span.copy? s.spans k = some ((s.offset + copyAt s.pieces k : Nat) : Int) := by
  have h := Span.copy?_place s.cell.uri s.offset 0 (s.lt_length_written hk) (x := k) (by simp)
  rw [← Int.natCast_add] at h
  exact h

/-- Where its copy stands, the document has the character. -/
theorem getElem?_text (hd : d.Settled) (hk : k < s.cell.text.length) :
    d.text[s.offset + copyAt s.pieces k]? = s.cell.text[k]? := by
  have hwritten := s.lt_length_written hk
  rw [s.text_eq hd, List.append_assoc, ← s.length_front,
    List.getElem?_append_right (Nat.le_add_right _ _), Nat.add_sub_cancel_left,
    List.getElem?_append_left (Piece.copyAt_lt hwritten), Piece.getElem?_copyAt hwritten,
    s.written_pieces, List.getElem?_append_left hk]

end Site

/-! ### Ranges -/

theorem Settled.exists_offsetAt {d : Document} (hd : d.Settled) {p : Position}
    (hp : p.line ≤ d.lineCount) : ∃ o, d.offsetAt p = .ok o ∧ o ≤ d.text.length := by
  have hlines : d.lineCount < d.text.lines.length := by
    rw [hd.lineCount_eq]
    exact Nat.sub_lt (List.length_pos_iff.2 (Text.lines_ne_nil _)) Nat.one_pos
  obtain ⟨o, ho⟩ := Text.exists_offsetAt?_of_lt (Nat.lt_of_le_of_lt hp hlines)
  exact ⟨o, hd.offsetAt_eq ho, (Text.positionAt_of_offsetAt? ho).1⟩

namespace Site

variable {d : Document} {uri : String} (s : d.Site uri)

/-- The way back counts the characters whose copies stand before an offset. -/
theorem lt_min_toWritten_iff {o k : Nat} (hle : s.offset ≤ o) (hk : k < s.cell.text.length) :
    k < min (toWritten s.pieces (o - s.offset)) s.cell.text.length ↔
      s.offset + copyAt s.pieces k < o := by
  have hiff := Piece.lt_toWritten_iff (s.lt_length_written hk) (o - s.offset)
  omega

/-- The end of a range that starts in the cell is the end of the cell if it belongs to another one.
Either way it has the characters whose copies stand before it in front. -/
theorem exists_stop {p : Position} {o : Nat} (hp : d.offsetAt p = .ok o) (hle : s.offset ≤ o)
    {uri' : String} {s' : d.Site uri'} (hcovers : s'.Covers o) :
    ∃ found : String × Int, ∃ b ≤ s.cell.text.length, d.notebookOffsetAt p = .ok found ∧
      (if found.1 = uri then found.2 else (s.cell.text.length : Int)) = (b : Int) ∧
      ∀ k < s.cell.text.length, k < b ↔ s.offset + copyAt s.pieces k < o := by
  have hback := s'.notebookOffsetAt_of_covers hp hcovers
  by_cases huri : uri' = uri
  · subst huri
    obtain rfl := s'.eq s
    exact ⟨_, _, Nat.min_le_right _ _, hback, if_pos rfl,
      fun k hk ↦ s'.lt_min_toWritten_iff hle hk⟩
  · refine ⟨_, s.cell.text.length, Nat.le_refl _, hback, if_neg huri, ?_⟩
    intro k hk
    have hbehind := le_of_covers_ne huri hcovers hle
    have hcopy := Piece.copyAt_lt (s.lt_length_written hk)
    omega

/-- A range that starts in a cell goes to a range of that cell, which has the characters whose
copies the given range has. -/
theorem exists_notebookLocationAt {r : Range} {x y : Nat} (hx : d.offsetAt r.start = .ok x)
    (hy : d.offsetAt r.stop = .ok y) (hxy : x ≤ y) (hcovers : s.Covers x) {uri' : String}
    {s' : d.Site uri'} (hcovers' : s'.Covers y) :
    ∃ a b, a ≤ b ∧ b ≤ s.cell.text.length ∧
      d.notebookLocationAt r = .ok ⟨uri, ⟨s.cell.positionAt a, s.cell.positionAt b⟩⟩ ∧
      ∀ k < s.cell.text.length, a ≤ k ∧ k < b ↔
        x ≤ s.offset + copyAt s.pieces k ∧ s.offset + copyAt s.pieces k < y := by
  set a := min (toWritten s.pieces (x - s.offset)) s.cell.text.length with ha
  have hstart := s.notebookOffsetAt_of_covers hx hcovers
  obtain ⟨found, b, hb, hfound, hstop, hbefore⟩ :=
    s.exists_stop hy (Nat.le_trans hcovers.1 hxy) hcovers'
  refine ⟨a, max b a, Nat.le_max_right _ _, Nat.max_le.2 ⟨hb, Nat.min_le_right _ _⟩, ?_, ?_⟩
  · have hmax : max (b : Int) a = (max b a : Nat) := by omega
    rw [notebookLocationAt, hstart, ok_bind]
    simp only [s.firstAt.cell?]
    rw [hfound, ok_bind, ← hmax, ← hstop]
    rfl
  · intro k hk
    have hfront := s.lt_min_toWritten_iff hcovers.1 hk
    have hback := hbefore k hk
    omega

end Site

/-- **A range of the document covers in a cell what it has copies of.** It goes to a range of the
cell that its start belongs to, which is the last one at the end of the document; the ends of that
range are positions of the cell, in order; and a character of the cell lies between them exactly if
its copy in the document lies between the offsets of the given range. -/
theorem notebookLocationAt_covers {d : Document} (h : Reachable d) (hcells : d.cells ≠ [])
    (hdistinct : d.cellUris.Nodup) {r : Range} (hstart : r.start.line ≤ d.lineCount)
    (hstop : r.stop.line ≤ d.lineCount) :
    ∃ x y, d.offsetAt r.start = .ok x ∧ d.offsetAt r.stop = .ok y ∧ (x ≤ y →
      ∃ (i : Nat) (c : Cell) (spans : List Span) (range : Range),
        d.cells[i]? = some c ∧ d.spans[i]? = some spans ∧ Span.startOf spans ≤ x ∧
        (x < Span.stopOf spans ∨ x = d.text.length ∧ i + 1 = d.cells.length) ∧
        d.notebookLocationAt r = .ok ⟨c.uri, range⟩ ∧
        c.text.HasPosition range.start ∧ c.text.HasPosition range.stop ∧
        range.start ≤ range.stop ∧
        ∀ k : Nat, k < c.text.length → ∃ o : Nat, Span.copy? spans k = some (o : Int) ∧
          d.text[o]? = c.text[k]? ∧
          (range.start ≤ c.positionAt k ∧ ¬ range.stop ≤ c.positionAt k ↔ x ≤ o ∧ o < y)) := by
  have hd := h.settled
  obtain ⟨x, hx, hxle⟩ := hd.exists_offsetAt hstart
  obtain ⟨y, hy, hyle⟩ := hd.exists_offsetAt hstop
  refine ⟨x, y, hx, hy, ?_⟩
  intro hxy
  -- the cell of the start, and that of the end: the same one or a later one
  obtain ⟨uri, s, hcovers⟩ := hd.exists_covers hcells hdistinct hxle
  obtain ⟨uri', s', hcovers'⟩ := hd.exists_covers hcells hdistinct hyle
  obtain ⟨a, b, hab, hb, hlocation, hchars⟩ :=
    s.exists_notebookLocationAt hx hy hxy hcovers hcovers'
  have ha := Nat.le_trans hab hb
  refine ⟨s.before.length, s.cell, s.spans, ⟨s.cell.positionAt a, s.cell.positionAt b⟩,
    ?_, ?_, ?_, ?_, ?_, Text.hasPosition_positionAt ha, Text.hasPosition_positionAt hb,
    Text.positionAt_mono hab hb, ?_⟩
  · rw [s.firstAt.cells_eq]
    simp
  · rw [s.spans_eq', ← s.length_spansBefore]
    simp
  · rw [s.startOf_spans]
    exact Int.ofNat_le.2 hcovers.1
  · rw [s.stopOf_spans]
    refine hcovers.2.imp (fun hlt ↦ by omega) (And.imp_right fun hlast ↦ ?_)
    rw [s.firstAt.cells_eq, hlast, List.length_append, List.length_singleton]
  · rw [hlocation, s.uri_cell]
  · intro k hk
    refine ⟨_, s.copy?_spans hk, s.getElem?_text hd hk, ?_⟩
    rw [← hchars k hk]
    show s.cell.text.positionAt a ≤ s.cell.text.positionAt k ∧
      ¬ s.cell.text.positionAt b ≤ s.cell.text.positionAt k ↔ _
    rw [Text.positionAt_le_iff ha (Nat.le_of_lt hk), Text.positionAt_le_iff hb (Nat.le_of_lt hk),
      Nat.not_le]

/-- Both ends of the range lie in annotations, the second one in front of a carriage return. What
the cell has of it is `%run` and the break in front. -/
theorem notebookLocationAt_covers_annotated :
    let d := headed.run
      [.opened ⟨"nb-cell:a", "python", 1, "x = 1".toList⟩,
        .opened ⟨"nb-cell:b", "python", 1, "!ls\n%run\r\n".toList⟩]
    let r : Range := ⟨⟨2, 6⟩, ⟨3, 5⟩⟩
    Reachable d ∧ d.cells ≠ [] ∧ d.cellUris.Nodup ∧ r.start.line ≤ d.lineCount ∧
      r.stop.line ≤ d.lineCount ∧
      ∃ (i : Nat) (c : Cell) (spans : List Span), d.cells[i]? = some c ∧
        d.spans[i]? = some spans ∧ c.uri = "nb-cell:b" ∧
        d.notebookLocationAt r = .ok ⟨c.uri, ⟨⟨0, 3⟩, ⟨1, 4⟩⟩⟩ ∧
        ∀ k : Nat, k < c.text.length → ∃ o : Nat, Span.copy? spans k = some (o : Int) ∧
          ((⟨0, 3⟩ : Position) ≤ c.positionAt k ∧ ¬ (⟨1, 4⟩ : Position) ≤ c.positionAt k ↔
            21 ≤ o ∧ o < 39) := by
  intro d r
  have hd : Reachable d := reachable_headed.run _
  have hcells : d.cells ≠ [] := by decide +kernel
  have hdistinct : d.cellUris.Nodup := by decide +kernel
  have hstart : r.start.line ≤ d.lineCount := by decide +kernel
  have hstop : r.stop.line ≤ d.lineCount := by decide +kernel
  obtain ⟨x, y, hx, hy, hall⟩ := notebookLocationAt_covers hd hcells hdistinct hstart hstop
  have hx' : d.offsetAt r.start = .ok 21 := rfl
  have hy' : d.offsetAt r.stop = .ok 39 := rfl
  obtain rfl : 21 = x := Except.ok.inj (hx'.symm.trans hx)
  obtain rfl : 39 = y := Except.ok.inj (hy'.symm.trans hy)
  obtain ⟨i, c, spans, range, hc, hspans, hfrom, hto, hlocation, -, -, -, hchars⟩ :=
    hall (by decide)
  have hlocation' : d.notebookLocationAt r = .ok ⟨"nb-cell:b", ⟨⟨0, 3⟩, ⟨1, 4⟩⟩⟩ := rfl
  obtain ⟨huri, hrange⟩ : c.uri = "nb-cell:b" ∧ range = ⟨⟨0, 3⟩, ⟨1, 4⟩⟩ := by
    have heq := Except.ok.inj (hlocation.symm.trans hlocation')
    exact ⟨congrArg Location.uri heq, congrArg Location.range heq⟩
  subst hrange
  refine ⟨hd, hcells, hdistinct, hstart, hstop, i, c, spans, hc, hspans, huri, hlocation, ?_⟩
  intro k hk
  obtain ⟨o, hcopy, -, hiff⟩ := hchars k hk
  exact ⟨o, hcopy, hiff⟩

end Document

end CellStitch
