import CellStitch.Document.Run
import CellStitch.Proofs.Document.Edit
/-!
# One event of a document

What an event does to a settled document (`Settled.handle`): the document stays settled, whether or
not the event fails, and what fixes it does not change. If the event does not fail, then what is
told to the server accounts for the change (`Document.Announces`): nothing is told where nothing
changed, and else the update has the next version and edits that lead to the new text.

Every reachable document is settled (`Reachable.settled`).
-/

namespace CellStitch

namespace Document

/-- What is told of a step accounts for it. -/
def Announces (d : Document) : Option Update → Document → Prop
  | none, d' => d'.text = d.text ∧ d'.version = d.version
  | some u, d' => u.uri = d.uri ∧ u.version = d.version + 1 ∧ d'.version = d.version + 1 ∧
      Edit.applyAll d.text u.edits = some d'.text

/-- A step from a document to a settled one that is accounted for by what is told of it. -/
structure SoundStep (d : Document) (update : Option Update) (d' : Document) : Prop where
  settled : d'.Settled
  sameSetup : d.SameSetup d'
  announces : d.Announces update d'

/-- Nothing happens, and nothing is told. -/
theorem SoundStep.refl {d : Document} (hd : d.Settled) : d.SoundStep none d :=
  ⟨hd, .refl d, rfl, rfl⟩

/-- The version is no part of what has to be settled. -/
theorem Settled.withVersion {d : Document} (hd : d.Settled) (version : Nat) :
    ({ d with version := version } : Document).Settled := by
  have hsame : d.SameSetup { d with version := version } := ⟨rfl, rfl, rfl⟩
  exact ⟨(hsame.spansFrom_eq 0 _).trans hd.spans_eq, hd.text_eq, hd.lineStarts_eq⟩

/-- **Sending edits** that lead to a document accounts for the step to it. -/
theorem SoundEdits.emit {d d' : Document} {edits : List Edit} (h : d.SoundEdits edits d') :
    d.SoundStep (d'.emit edits).2 (d'.emit edits).1 := by
  have hsame := h.sameSetup
  have hversion := congrArg (· + 1) h.version_eq
  unfold Document.emit
  split
  · rename_i hempty
    have htext := h.applyAll_eq
    rw [List.isEmpty_iff.1 hempty] at htext
    exact ⟨h.settled, hsame, (Option.some.inj htext).symm, h.version_eq⟩
  · refine ⟨h.settled.withVersion _, ⟨hsame.uri_eq, hsame.settings_eq, hsame.header_eq⟩, ?_⟩
    exact ⟨hsame.uri_eq, hversion, hversion, h.applyAll_eq⟩

/-! ### The events -/

section Events

variable {d : Document}

/-- A rebuild of the document with other cells. -/
theorem sameSetup_of_rebuild {cells : CellList} {d' : Document}
    (h : ({ d with cells := cells } : Document).rebuild = .ok d') :
    d'.Settled ∧ d.SameSetup d' ∧ d'.cells = cells ∧ d'.version = d.version := by
  obtain ⟨hd', hsame, hcells, hversion⟩ := settled_of_rebuild h
  exact ⟨hd', ⟨hsame.uri_eq, hsame.settings_eq, hsame.header_eq⟩, hcells, hversion⟩

/-- The edits between two texts lead from the one to the other, also if there is none. -/
theorem applyAll_between (old new : Text) :
    Edit.applyAll old (Edit.between old new).toList = some new := by
  rcases h : Edit.between old new with - | e
  · rw [Edit.between_eq_none_iff.1 h]
    rfl
  · show (e.applyTo old).bind (fun t ↦ some t) = some new
    rw [Edit.applyTo_of_between h, Option.bind_some]

/-- Laying cells out anew is a sound step: what is sent is the difference of the two texts. -/
theorem SoundStep.of_withCells {cells : CellList} {r : Document × Option Update}
    (h : d.withCells cells = .ok r) : d.SoundStep r.2 r.1 := by
  obtain ⟨d', hd', h⟩ := bind_eq_ok_iff.1 h
  obtain rfl := (Except.ok.inj h).symm
  obtain ⟨hsettled, hsame, -, hversion⟩ := sameSetup_of_rebuild hd'
  exact SoundEdits.emit ⟨hsettled, hsame, hversion, applyAll_between d.text d'.text⟩

/-- Opening a cell lays all cells out anew, or nothing is done. -/
theorem SoundStep.of_openCell (hd : d.Settled) {c : Cell} {r : Document × Option Update}
    (h : d.openCell c = .ok r) : d.SoundStep r.2 r.1 := by
  obtain ⟨taken, -, h⟩ := bind_eq_ok_iff.1 h
  cases taken with
  | false =>
    cases h
    exact .refl hd
  | true =>
    obtain ⟨⟨i, cells⟩, -, h⟩ := bind_eq_ok_iff.1 h
    exact .of_withCells h

/-- Closing a cell lays the other cells out anew, or nothing is done. -/
theorem SoundStep.of_closeCell (hd : d.Settled) {uri : String} {r : Document × Option Update}
    (h : d.closeCell uri = .ok r) : d.SoundStep r.2 r.1 := by
  unfold Document.closeCell at h
  split at h
  · cases h
    exact .refl hd
  · exact .of_withCells h

/-- A refresh lays the new cells out, whatever cells there were before. -/
theorem SoundStep.of_refresh {cells : List Cell} {r : Document × Option Update}
    (h : d.refresh cells = .ok r) : d.SoundStep r.2 r.1 := by
  obtain ⟨taken, -, h⟩ := bind_eq_ok_iff.1 h
  obtain ⟨cells', -, h⟩ := bind_eq_ok_iff.1 h
  obtain ⟨d', hd', h⟩ := bind_eq_ok_iff.1 h
  obtain rfl := (Except.ok.inj h).symm
  obtain ⟨hsettled, hsame, -, hversion⟩ := sameSetup_of_rebuild hd'
  refine SoundEdits.emit ⟨hsettled, hsame, hversion, ?_⟩
  split
  · rename_i htext
    rw [htext]
    rfl
  · rfl

/-- What an event may come to: the document is settled, also if the event failed, and the step is
sound if it did not. -/
structure SoundOutcome (d : Document) (outcome : Document × Except Failure (Option Update)) :
    Prop where
  settled : outcome.1.Settled
  sameSetup : d.SameSetup outcome.1
  soundStep : ∀ update, outcome.2 = .ok update → d.SoundStep update outcome.1

theorem SoundOutcome.of_error {d' : Document} (hd' : d'.Settled) (hsame : d.SameSetup d')
    (f : Failure) : d.SoundOutcome (d', .error f) := by
  refine ⟨hd', hsame, ?_⟩
  intro update hupdate
  cases hupdate

theorem SoundStep.outcome {d' : Document} {update : Option Update} (h : d.SoundStep update d') :
    d.SoundOutcome (d', .ok update) := by
  refine ⟨h.settled, h.sameSetup, ?_⟩
  intro update' hupdate
  obtain rfl := Except.ok.inj hupdate
  exact h

/-- Where a step that fails changes nothing, it is enough that it is sound when it does not. -/
theorem SoundOutcome.of_orKeep (hd : d.Settled) {x : Except Failure (Document × Option Update)}
    (h : ∀ r, x = .ok r → d.SoundStep r.2 r.1) : d.SoundOutcome (d.orKeep x) := by
  rcases x with f | r
  · exact .of_error hd (.refl d) f
  · exact (h r rfl).outcome

/-- A change is settled up to the edit that fails, if there is one. -/
theorem SoundOutcome.of_changeCell (hd : d.Settled) (uri : String) (version : Int)
    (edits : List Edit) : d.SoundOutcome (d.changeCell uri version edits) := by
  unfold changeCell
  -- the cell is not there, or the version is not a higher one, or the edits are carried out
  split
  · exact (SoundStep.refl hd).outcome
  · split
    · exact (SoundStep.refl hd).outcome
    · obtain ⟨hd', hsame, hout⟩ := hd.editCells uri version edits
      split
      · rename_i d' f hrun
        rw [hrun] at hd' hsame
        exact .of_error hd' hsame f
      · rename_i d' out hrun
        rw [hrun] at hout
        exact (hout out rfl).emit.outcome

/-- **One event** leaves a document settled, also if it fails, and is accounted for by what is told
of it if it does not. -/
theorem Settled.handle (hd : d.Settled) (e : Event) : d.SoundOutcome (d.handle e) := by
  cases e with
  | opened c => exact .of_orKeep hd fun _ h ↦ .of_openCell hd h
  | changed uri version edits => exact .of_changeCell hd uri version edits
  | closed uri => exact .of_orKeep hd fun _ h ↦ .of_closeCell hd h
  | refreshed cells => exact .of_orKeep hd fun _ h ↦ .of_refresh h

/-- An event that succeeds is a sound step, by the cases of the event. -/
theorem Settled.soundStep_of_handle (hd : d.Settled) {e : Event} {d' : Document}
    {update : Option Update} (h : d.handle e = (d', .ok update)) : d.SoundStep update d' := by
  have hsound := (hd.handle e).soundStep update
  rw [h] at hsound
  exact hsound rfl

end Events

/-- **Every reachable document is settled.** -/
theorem Reachable.settled {d : Document} (h : Reachable d) : d.Settled := by
  induction h with
  | new h => exact (settled_of_new h).1
  | handle _ e ih => exact (ih.handle e).settled

/-- **A run** leaves a document settled, and what fixes it as it was. -/
theorem Settled.run {d : Document} (hd : d.Settled) (events : List Event) :
    (d.run events).Settled ∧ d.SameSetup (d.run events) := by
  induction events generalizing d with
  | nil => exact ⟨hd, .refl d⟩
  | cons e events ih =>
    have hstep := hd.handle e
    obtain ⟨hrun, hsame⟩ := ih hstep.settled
    exact ⟨hrun, hstep.sameSetup.trans hsame⟩

/-! ### A document to start from -/

/-- A new document with a header. -/
def headed : Document :=
  ⟨"file:///n.py", Settings.default.withHeader (.text "import m"), .text "import m\n", [], [], [],
    [0], 0⟩

theorem new_headed : Document.new headed.uri headed.settings = .ok headed := rfl

theorem reachable_headed : Reachable headed := .new new_headed

end Document

end CellStitch
