import CellStitch.Proofs.Document.FailedChange
import CellStitch.Proofs.Document.Mapping
/-!
# A change carries out what its client did

A client edits a text of its own and sends the edits. A change carries them out on the cell, each
on what the ones before it left, and reads their ranges against that text. So the cell ends with the
text of the client (`Cell.edited_eq`), and a change fails exactly where a client could not have made
the edit: at the first one whose range names a line that the text does not have then, or stops
before it starts (`Edit.Misfits`, `Edit.Stuck`, `Cell.edited_eq_error_iff`).

On the document this is `Reachable.handle_changed_eq`: nothing but the first cell with the URI is
edited, and a change that brings no higher version does nothing.
-/

namespace CellStitch

/-- Steps of which the same is made fail together, and alike. -/
theorem eq_error_iff_of_map_eq {ε α β γ : Type} {x : Except ε α} {y : Except ε β} {f : α → γ}
    {g : β → γ} (h : x.map f = y.map g) {e : ε} : x = .error e ↔ y = .error e := by
  cases x <;> cases y <;> simp_all [Except.map]

/-! ### Edits that fit, and edits that do not -/

/-- An edit cannot be carried out on the text of the cell with a URI, and why. -/
inductive Edit.Misfits (uri : String) (t : Text) : Edit → Failure → Prop where
  /-- The text does not have the line at which the range starts. -/
  | start {r : Range} {new : Text} (h : t.lines.length ≤ r.start.line) :
    Misfits uri t (.ranged r new) (.lineOutOfRange r.start.line t.lines.length)
  /-- The text has this line, but not the one at which the range stops. -/
  | stop {r : Range} {new : Text} (hstart : r.start.line < t.lines.length)
    (h : t.lines.length ≤ r.stop.line) :
    Misfits uri t (.ranged r new) (.lineOutOfRange r.stop.line t.lines.length)
  /-- Each character is cut to its line, and even so the range stops before it starts. -/
  | inverted {r : Range} {new : Text} {a b : Nat} (ha : t.offsetAt? r.start = some a)
    (hb : t.offsetAt? r.stop = some b) (h : b < a) :
    Misfits uri t (.ranged r new) (.invertedEdit r uri)

section Fits

variable {c : Cell} {e : Edit} {p : Position} {f : Failure} {t : Text}

/-- **The offsets of an edit are found** exactly if the edit can be carried out, and then it
replaces what stands between them. -/
theorem Edit.applyTo_eq_some_iff : e.applyTo c.text = some t ↔
    ∃ a b, Document.editedOffsets c e = .ok (a, b) ∧ t = c.text.splice a b e.text := by
  cases e with
  | whole new =>
    have hall : c.text.splice 0 c.text.length new = new := by simp [Text.splice]
    constructor
    · intro h
      obtain rfl : new = t := Option.some.inj h
      exact ⟨0, c.text.length, rfl, hall.symm⟩
    · rintro ⟨a, b, hoff, rfl⟩
      cases hoff
      exact congrArg some hall.symm
  | ranged r new =>
    rw [Edit.applyTo, Document.editedOffsets, Cell.offsetAt, Cell.offsetAt]
    rcases c.text.offsetAt? r.start with - | a
    · simp
    · rcases c.text.offsetAt? r.stop with - | b
      · simp
      · by_cases hab : a ≤ b <;> simp [hab, Edit.text, pure, Except.pure, eq_comm]

theorem Edit.Misfits.editedOffsets_eq (h : e.Misfits c.uri c.text f) :
    Document.editedOffsets c e = .error f := by
  cases h with
  | start hline =>
    rw [Document.editedOffsets, Cell.offsetAt_eq_error_iff.2 ⟨hline, rfl⟩, error_bind]
  | stop hstart hline =>
    obtain ⟨a, ha⟩ := Cell.exists_offsetAt hstart
    rw [Document.editedOffsets, ha, ok_bind, Cell.offsetAt_eq_error_iff.2 ⟨hline, rfl⟩, error_bind]
  | inverted ha hb hlt =>
    rw [Document.editedOffsets, Cell.offsetAt_eq_ok_iff.2 ha, ok_bind,
      Cell.offsetAt_eq_ok_iff.2 hb, ok_bind, if_neg (Nat.not_le.2 hlt)]

/-- **The offsets of an edit are not found** exactly if the edit cannot be carried out. -/
theorem Edit.misfits_iff : e.Misfits c.uri c.text f ↔ Document.editedOffsets c e = .error f := by
  refine ⟨Edit.Misfits.editedOffsets_eq, fun h ↦ ?_⟩
  cases e with
  | whole new => cases h
  | ranged r new =>
    rw [Document.editedOffsets] at h
    rcases hstart : c.offsetAt r.start with g | a <;> rw [hstart] at h
    · cases h
      obtain ⟨hline, rfl⟩ := Cell.offsetAt_eq_error_iff.1 hstart
      exact .start hline
    have ha := Cell.offsetAt_eq_ok_iff.1 hstart
    rcases hstop : c.offsetAt r.stop with g | b <;> rw [hstop] at h
    · cases h
      obtain ⟨hline, rfl⟩ := Cell.offsetAt_eq_error_iff.1 hstop
      exact .stop (Text.lt_of_offsetAt?_eq_some ha) hline
    have hb := Cell.offsetAt_eq_ok_iff.1 hstop
    rw [ok_bind, ok_bind] at h
    split at h
    · cases h
    · rename_i hinverted
      cases h
      exact .inverted ha hb (Nat.not_le.1 hinverted)

end Fits

/-! ### Edits one after another -/

/-- Not all edits can be carried out one after another: the ones before some edit can, and that one
does not fit what they leave. -/
def Edit.Stuck (uri : String) (t : Text) (edits : List Edit) (f : Failure) : Prop :=
  ∃ (k : Nat) (e : Edit) (t' : Text), edits[k]? = some e ∧
    Edit.applyAll t (edits.take k) = some t' ∧ e.Misfits uri t' f

theorem Edit.stuck_cons_iff {uri : String} {t : Text} {e : Edit} {edits : List Edit} {f : Failure} :
    Edit.Stuck uri t (e :: edits) f ↔
      e.Misfits uri t f ∨ ∃ t₁, e.applyTo t = some t₁ ∧ Edit.Stuck uri t₁ edits f := by
  constructor
  · rintro ⟨- | k, e', t', he', happly, hmisfits⟩
    · obtain rfl : e = e' := Option.some.inj he'
      obtain rfl : t = t' := Option.some.inj happly
      exact .inl hmisfits
    · obtain ⟨t₁, hfirst, hrest⟩ := Option.bind_eq_some_iff.1 happly
      exact .inr ⟨t₁, hfirst, k, e', t', he', hrest, hmisfits⟩
  · rintro (hmisfits | ⟨t₁, hfirst, k, e', t', he', hrest, hmisfits⟩)
    · exact ⟨0, e, t, rfl, rfl, hmisfits⟩
    · exact ⟨k + 1, e', t', he', Option.bind_eq_some_iff.2 ⟨t₁, hfirst, hrest⟩, hmisfits⟩

namespace Cell

variable {version : Int} {edits : List Edit} {f : Failure}

/-- **Edits fail at the first one that does not fit**, and with its failure. -/
theorem edited_eq_error_iff (c : Cell) :
    (c.edited version edits).2 = .error f ↔ Edit.Stuck c.uri c.text edits f := by
  induction edits generalizing c with
  | nil => simp [edited, Edit.Stuck]
  | cons e edits ih =>
    rw [edited, Edit.stuck_cons_iff, Edit.misfits_iff]
    rcases hoff : Document.editedOffsets c e with g | ⟨a, b⟩
    · -- nothing is carried out behind an edit that does not fit
      have hnone : ∀ t, e.applyTo c.text ≠ some t := by
        intro t ht
        obtain ⟨a, b, hok, -⟩ := Edit.applyTo_eq_some_iff.1 ht
        rw [hoff] at hok
        cases hok
      simp [hnone]
    · have hfits : e.applyTo c.text = some (c.text.splice a b e.text) :=
        Edit.applyTo_eq_some_iff.2 ⟨a, b, hoff, rfl⟩
      simp [hfits, ih]

/-- **Edits that fit lead to the text of the client.** The version never falls. -/
theorem edited_eq {c : Cell} (h : (c.edited version edits).2 = .ok ()) :
    ∃ t, Edit.applyAll c.text edits = some t ∧ (c.edited version edits).1 =
      { c with text := t, version := if edits = [] then c.version else max c.version version } := by
  induction edits generalizing c with
  | nil => exact ⟨c.text, rfl, rfl⟩
  | cons e edits ih =>
    rw [edited] at h ⊢
    rcases hoff : Document.editedOffsets c e with g | ⟨a, b⟩ <;> rw [hoff] at h
    · cases h
    · obtain ⟨t, hrest, hedited⟩ := ih h
      have hfits := Edit.applyTo_eq_some_iff.2 ⟨a, b, hoff, rfl⟩
      refine ⟨t, Option.bind_eq_some_iff.2 ⟨_, hfits, hrest⟩, ?_⟩
      -- a version that was raised already is not raised again
      have hversion : max (max c.version version) version = max c.version version :=
        Int.max_eq_left (Int.le_max_right _ _)
      simp only [hedited, if_neg (List.cons_ne_nil e edits), hversion, ite_self]

end Cell

/-! ### A change of a document -/

namespace Document

/-- **A change that is taken fails exactly if its edits get stuck**, and as they do. -/
theorem Settled.handle_changed_eq_error_iff {d : Document} (hd : d.Settled) {uri : String}
    {c : Cell} (hcell : d.cells.cell? uri = some c) {version : Int} (hversion : c.version < version)
    {edits : List Edit} {f : Failure} :
    (d.handle (.changed uri version edits)).2 = .error f ↔ Edit.Stuck uri c.text edits f := by
  have hout := (hd.handle_changed uri version edits).2
  obtain ⟨before, after, hfirst⟩ := CellList.exists_firstAt hcell
  rw [hcell] at hout
  simp only [Cell.changed, if_neg (Int.not_le.2 hversion)] at hout
  rw [eq_error_iff_of_map_eq hout, Cell.edited_eq_error_iff, hfirst.uri_eq]

/-- **A change carries out what its client did**, or nothing if it names no cell or brings no higher
version. It fails exactly if one of its edits does not fit the text that the ones before it left;
that one gives the failure. Else the first cell with the URI has the text of the client then, and
the version of the change unless it makes no edit. All other cells stay, and so does their order. -/
theorem Reachable.handle_changed_eq {d : Document} (h : Reachable d) (uri : String) (version : Int)
    (edits : List Edit) :
    ((∀ c, d.cells.cell? uri = some c → version ≤ c.version) →
      d.handle (.changed uri version edits) = (d, .ok none)) ∧
    ∀ c, d.cells.cell? uri = some c → c.version < version →
      (∀ f, (d.handle (.changed uri version edits)).2 = .error f ↔
        Edit.Stuck uri c.text edits f) ∧
      ∀ d' told, d.handle (.changed uri version edits) = (d', .ok told) →
        ∃ t before after, Edit.applyAll c.text edits = some t ∧
          d.cells.FirstAt uri before c after ∧ d'.cells = before ++
            { c with
              text := t
              version := if edits = [] then c.version else version } :: after := by
  refine ⟨?_, ?_⟩
  · intro hold
    rcases hcell : d.cells.cell? uri with - | c
    · rw [Document.handle, changeCell, hcell]
    · exact changeCell_eq_self hcell (hold c hcell) edits
  · intro c hcell hversion
    have hfails : ∀ f, (d.handle (.changed uri version edits)).2 = .error f ↔
        Edit.Stuck uri c.text edits f :=
      fun f ↦ h.settled.handle_changed_eq_error_iff hcell hversion
    refine ⟨hfails, ?_⟩
    intro d' told hrun
    have hcells := (h.settled.handle_changed uri version edits).1
    obtain ⟨before, after, hfirst⟩ := CellList.exists_firstAt hcell
    have hfits : (c.edited version edits).2 = .ok () := by
      rcases hedit : (c.edited version edits).2 with f | u
      · rw [Cell.edited_eq_error_iff, hfirst.uri_eq, ← hfails f, hrun] at hedit
        cases hedit
      · rfl
    obtain ⟨t, happly, hedited⟩ := Cell.edited_eq hfits
    refine ⟨t, before, after, happly, hfirst, ?_⟩
    rw [hrun, hfirst.update] at hcells
    rw [hcells]
    simp only [Cell.changed, if_neg (Int.not_le.2 hversion), hedited,
      Int.max_eq_right (Int.le_of_lt hversion)]

/-- A document with a header, a plain cell, and one whose lines are annotated. -/
def withAnnotatedCell : Document :=
  headed.run
    [.opened ⟨"nb-cell:a", "python", 1, "x = 1".toList⟩,
      .opened ⟨"nb-cell:b", "python", 1, "!ls\n%run\r\n".toList⟩]

/-- Edits of the annotated cell. The range of the first one looks as if it stopped before it starts,
but both its ends are cut to the end of the line. -/
def cutToLine : List Edit :=
  [.ranged ⟨⟨0, 9⟩, ⟨0, 7⟩⟩ "\ny".toList, .ranged ⟨⟨1, 0⟩, ⟨2, 4⟩⟩ []]

/-- The edits fit one after another. A third one that stops on a line above its start does not, and
the version that the cell has already is not taken again. -/
theorem Reachable.handle_changed_eq_cutToLine :
    let d := withAnnotatedCell
    let inverted : Range := ⟨⟨1, 1⟩, ⟨0, 0⟩⟩
    Reachable d ∧
      (∃ d' told, d.handle (.changed "nb-cell:b" 2 cutToLine) = (d', .ok told) ∧
        d'.cells = [⟨"nb-cell:a", "python", 1, "x = 1".toList⟩,
          ⟨"nb-cell:b", "python", 2, "!ls\n\r\n".toList⟩]) ∧
      (d.handle (.changed "nb-cell:b" 2 (cutToLine ++ [.ranged inverted []]))).2 =
        .error (.invertedEdit inverted "nb-cell:b") ∧
      d.handle (.changed "nb-cell:b" 1 cutToLine) = (d, .ok none) := by
  intro d inverted
  have hd : Reachable d := reachable_headed.run _
  have hcell : d.cells.cell? "nb-cell:b" =
      some ⟨"nb-cell:b", "python", 1, "!ls\n%run\r\n".toList⟩ := by decide +kernel
  refine ⟨hd, ?_, ?_, ?_⟩
  · obtain ⟨d', told, hrun⟩ : ∃ d' told,
        d.handle (.changed "nb-cell:b" 2 cutToLine) = (d', .ok told) := ⟨_, _, rfl⟩
    obtain ⟨t, before, after, happly, hfirst, hcells⟩ :=
      ((hd.handle_changed_eq "nb-cell:b" 2 cutToLine).2 _ hcell (by decide)).2 d' told hrun
    refine ⟨d', told, hrun, ?_⟩
    have happly' : Edit.applyAll "!ls\n%run\r\n".toList cutToLine = some "!ls\n\r\n".toList := by
      decide +kernel
    have hfirst' : d.cells.FirstAt "nb-cell:b" [⟨"nb-cell:a", "python", 1, "x = 1".toList⟩]
        ⟨"nb-cell:b", "python", 1, "!ls\n%run\r\n".toList⟩ [] :=
      ⟨by decide +kernel, rfl, by simp⟩
    obtain rfl := Option.some.inj (happly'.symm.trans happly)
    obtain ⟨rfl, -, rfl⟩ := hfirst'.unique hfirst
    exact hcells
  · refine (((hd.handle_changed_eq "nb-cell:b" 2 _).2 _ hcell (by decide)).1 _).2 ?_
    exact ⟨2, _, "!ls\n\r\n".toList, rfl, by decide +kernel,
      .inverted (a := 5) (b := 0) (by decide +kernel) (by decide +kernel) (by decide)⟩
  · refine (hd.handle_changed_eq "nb-cell:b" 1 cutToLine).1 ?_
    intro c hc
    obtain rfl := Option.some.inj (hcell.symm.trans hc)
    exact Int.le_refl 1

end Document

end CellStitch
