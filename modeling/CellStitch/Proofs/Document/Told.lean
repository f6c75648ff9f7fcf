import CellStitch.Proofs.Document.Commute
import CellStitch.Proofs.Text.Injective
/-!
# When something is told

Of a cell that is opened, of one that is closed and of a refresh something is told exactly if the
text is another one then. A change is told whenever it is carried out and has edits, whatever they
come to: edits that put in what was there, or that take one another back, are passed on, and counted
(`Reachable.eq_none_iff_text_eq_iff`).

The text of the document tells which change it was, as far as its cell goes: it is the same
afterwards exactly if the text of the cell is (`Settled.text_handle_changed_eq_iff`), because
nothing is lost in rendering.
-/

namespace CellStitch

/-- A change of a cell is told of if the text of the cell is another one then, or if it is carried
out and has edits that come to nothing. -/
theorem Cell.eq_true_of_changed_iff {c : Cell} {version : Int} {edits : List Edit} {told : Bool}
    (h : (c.changed version edits).2 = .ok told) : told = true ↔
      (c.changed version edits).1.text ≠ c.text ∨
        (c.version < version ∧ edits ≠ [] ∧ (c.edited version edits).1.text = c.text) := by
  rw [changed] at h ⊢
  split at h
  · rename_i hversion
    obtain rfl := Except.ok.inj h
    simp [hversion, Int.not_lt.2 hversion]
  · rename_i hversion
    rw [if_neg hversion]
    rcases hedited : (c.edited version edits).2 with f | _ <;> rw [hedited] at h
    · cases h
    · obtain rfl := Except.ok.inj h
      by_cases hedits : edits = []
      · subst hedits
        simp [edited]
      · simp [hedits, Int.lt_of_not_ge hversion, Decidable.or_iff_not_imp_left]

namespace Document

variable {d d' : Document} {update : Option Update}

/-! ### Texts of cells and of their document -/

/-- **The text of a document tells the text of each cell**, if all else stays. -/
theorem shownBy_replace_iff {before after : CellList} {c c' : Cell} (huri : c'.uri = c.uri) :
    d.shownBy (before ++ c' :: after) = d.shownBy (before ++ c :: after) ↔ c'.text = c.text := by
  have huris : (before ++ c' :: after).map Cell.uri = (before ++ c :: after).map Cell.uri := by
    simp [huri]
  rw [shownBy, shownBy, leadingHeader_congr huris, List.append_cancel_left_eq,
    List.flatMap_append, List.flatMap_append, List.append_cancel_left_eq, List.flatMap_cons,
    List.flatMap_cons, List.append_cancel_right_eq, List.append_cancel_right_eq]
  exact ⟨Rendering.text_injective, congrArg _⟩

/-- **A change leaves the text of a document** as it was exactly if it leaves that of its cell. -/
theorem Settled.text_handle_changed_eq_iff (hd : d.Settled) {uri : String} {c : Cell}
    (hc : d.cells.cell? uri = some c) (version : Int) (edits : List Edit) :
    (d.handle (.changed uri version edits)).1.text = d.text ↔
      (c.changed version edits).1.text = c.text := by
  obtain ⟨before, after, hfirst⟩ := CellList.exists_firstAt hc
  have hstep := hd.handle (.changed uri version edits)
  rw [hstep.settled.text_eq_shownBy, hstep.sameSetup.shownBy_eq, hd.text_eq_shownBy,
    (hd.handle_changed uri version edits).1, hfirst.update, hfirst.cells_eq]
  exact shownBy_replace_iff (Cell.uri_changed c)

/-! ### Events that are told of their text -/

/-- **A cell that is opened** is told of exactly if the text is another one then. -/
theorem isSome_of_openCell {c : Cell} {r : Document × Option Update} (h : d.openCell c = .ok r) :
    r.2.isSome = true ↔ r.1.text ≠ d.text := by
  obtain ⟨taken, -, h⟩ := bind_eq_ok_iff.1 h
  cases taken with
  | false =>
    obtain rfl := Except.ok.inj h
    simp
  | true =>
    obtain ⟨⟨i, cells⟩, -, h⟩ := bind_eq_ok_iff.1 h
    exact isSome_of_withCells h

/-- **A cell that is closed** is told of exactly if the text is another one then. -/
theorem isSome_of_closeCell {uri : String} {r : Document × Option Update}
    (h : d.closeCell uri = .ok r) : r.2.isSome = true ↔ r.1.text ≠ d.text := by
  rw [closeCell] at h
  split at h
  · obtain rfl := Except.ok.inj h
    simp
  · exact isSome_of_withCells h

/-- **A refresh** is told of exactly if the text is another one then. -/
theorem isSome_of_refresh {cells : List Cell} {r : Document × Option Update}
    (h : d.refresh cells = .ok r) : r.2.isSome = true ↔ r.1.text ≠ d.text := by
  obtain ⟨taken, -, h⟩ := bind_eq_ok_iff.1 h
  obtain ⟨cells', -, h⟩ := bind_eq_ok_iff.1 h
  obtain ⟨rebuilt, -, h⟩ := bind_eq_ok_iff.1 h
  obtain rfl := Except.ok.inj h
  rw [isSome_emit, text_emit]
  split <;> simp [*]

/-! ### All events -/

/-- A change that is carried out and has edits, but leaves the text of its cell as it was. -/
def ChangesNothing (d : Document) : Event → Prop
  | .changed uri version edits => ∃ c, d.cells.cell? uri = some c ∧ c.version < version ∧
      edits ≠ [] ∧ (c.edited version edits).1.text = c.text
  | _ => False

/-- **A change** is told of if the text is another one then, and also if it puts into its cell what
was there. -/
theorem Settled.isSome_of_changed (hd : d.Settled) {uri : String} {version : Int}
    {edits : List Edit} (h : d.handle (.changed uri version edits) = (d', .ok update)) :
    update.isSome = true ↔
      d'.text ≠ d.text ∨ d.ChangesNothing (.changed uri version edits) := by
  have htold := (hd.handle_changed uri version edits).2
  rw [h] at htold
  rcases hcell : d.cells.cell? uri with - | c <;> rw [hcell] at htold
  · -- the cell is not there, and nothing happens
    have htext : d'.text = d.text := by
      rw [Document.handle, changeCell, hcell] at h
      exact congrArg text (congrArg Prod.fst h).symm
    have hnone : update.isSome = false := Except.ok.inj htold
    simp [ChangesNothing, hcell, hnone, htext]
  · have htext := hd.text_handle_changed_eq_iff hcell version edits
    rw [h] at htext
    rw [Cell.eq_true_of_changed_iff htold.symm, Ne, ← htext]
    simp [ChangesNothing, hcell]

/-- **Something is told of an event** if the text is another one then. Otherwise it only is if the
event is a change that puts into its cell what was there. -/
theorem Settled.isSome_iff (hd : d.Settled) {e : Event} (h : d.handle e = (d', .ok update)) :
    update.isSome = true ↔ d'.text ≠ d.text ∨ d.ChangesNothing e := by
  cases e with
  | opened c => simpa [ChangesNothing] using isSome_of_openCell (eq_ok_of_orKeep h)
  | changed uri version edits => exact hd.isSome_of_changed h
  | closed uri => simpa [ChangesNothing] using isSome_of_closeCell (eq_ok_of_orKeep h)
  | refreshed cells => simpa [ChangesNothing] using isSome_of_refresh (eq_ok_of_orKeep h)

/-- Such a change leaves the text of the document as it was. -/
theorem Settled.text_handle_of_changesNothing (hd : d.Settled) {e : Event}
    (h : d.ChangesNothing e) : (d.handle e).1.text = d.text := by
  cases e with
  | changed uri version edits =>
    obtain ⟨c, hc, hversion, -, htext⟩ := h
    rwa [hd.text_handle_changed_eq_iff hc, Cell.changed, if_neg (Int.not_le.2 hversion)]
  | opened | closed | refreshed => exact h.elim

/-- **What is told of an event counts it, and says that the text is another one**, apart from a
change that leaves the text of its cell as it was. The version grows by one exactly if something is
told; if nothing is, then the text stays. The converse holds exactly if the event is no change that
is carried out, has edits, and puts into its cell what was there. -/
theorem Reachable.eq_none_iff_text_eq_iff (h : Reachable d) {e : Event}
    (hok : d.handle e = (d', .ok update)) :
    (d'.version = d.version + 1 ↔ update ≠ none) ∧ (d'.version = d.version ↔ update = none) ∧
      (update = none → d'.text = d.text) ∧
      ((update = none ↔ d'.text = d.text) ↔ ¬ d.ChangesNothing e) := by
  have hsome := h.settled.isSome_iff hok
  have hnothing : d.ChangesNothing e → d'.text = d.text := by
    have htext := h.settled.text_handle_of_changesNothing (e := e)
    rwa [hok] at htext
  have hversion := h.settled.version_handle e
  rw [hok] at hversion
  dsimp only [Except.map] at hversion
  rcases update with - | u
  · have htext : d'.text = d.text ∧ ¬ d.ChangesNothing e := by
      simpa [not_or] using hsome
    simp [hversion, htext]
  · have htext : d'.text = d.text ↔ d.ChangesNothing e := by
      have hone : d'.text ≠ d.text ∨ d.ChangesNothing e := hsome.1 rfl
      exact ⟨fun heq ↦ hone.resolve_left (not_not_intro heq), hnothing⟩
    simp [hversion, htext]

/-- A change whose two edits take one another back is told of and counted: the annotation comes with
the first of them and goes with the second. -/
theorem eq_none_iff_text_eq_iff_undone :
    let e : Event := .changed "nb-cell:a" 2
      [.ranged ⟨⟨0, 0⟩, ⟨0, 0⟩⟩ "!".toList, .ranged ⟨⟨0, 0⟩, ⟨0, 1⟩⟩ []]
    Reachable withOneCell ∧ withOneCell.ChangesNothing e ∧
      ∃ d' u, withOneCell.handle e = (d', .ok (some u)) ∧ d'.version = withOneCell.version + 1 ∧
        d'.text = withOneCell.text := by
  intro e
  have hd : Reachable withOneCell := reachable_headed.run _
  have hnothing : withOneCell.ChangesNothing e :=
    ⟨⟨"nb-cell:a", "python", 1, "x = 1".toList⟩, by decide +kernel, by decide, by decide,
      by decide +kernel⟩
  obtain ⟨d', u, hhandle⟩ : ∃ d' u, withOneCell.handle e = (d', .ok (some u)) := ⟨_, _, rfl⟩
  obtain ⟨hcounted, -, -, hiff⟩ := hd.eq_none_iff_text_eq_iff hhandle
  have htext : d'.text = withOneCell.text := by
    by_contra hne
    exact hiff.1 (by simp [hne]) hnothing
  exact ⟨hd, hnothing, d', u, hhandle, hcounted.2 (Option.some_ne_none u), htext⟩

/-- **Something may be told although the text stays as it is**: a character is replaced by
itself. -/
theorem exists_told_of_same_text :
    ¬ ∀ (d d' : Document) (e : Event) (update : Option Update), Reachable d →
      d.handle e = (d', .ok update) → (update = none ↔ d'.text = d.text) ∧
        (d'.version = d.version + 1 ↔ update ≠ none) := by
  intro hall
  let e : Event := .changed "nb-cell:a" 2 [.ranged ⟨⟨0, 0⟩, ⟨0, 1⟩⟩ "x".toList]
  obtain ⟨d', u, hhandle⟩ : ∃ d' u, withOneCell.handle e = (d', .ok (some u)) := ⟨_, _, rfl⟩
  obtain ⟨hnone, -⟩ := hall withOneCell d' e (some u) (reachable_headed.run _) hhandle
  have htext : (withOneCell.handle e).1.text = withOneCell.text := by decide +kernel
  rw [hhandle] at htext
  exact Option.some_ne_none u (hnone.2 htext)

end Document

end CellStitch
