import CellStitch.Proofs.Document.Step
import CellStitch.Proofs.Run
/-!
# The text at the server

A server that starts with an empty text and carries every update out, edit by edit, has the text of
the document after every event of a run in which none fails (`mirror_eq_text`). The updates have the
versions 1, 2, 3, ..., up to the version of the document.

One event is a `Document.SoundStep`, and a run is a `Document.SoundRun`, which is built from the
front: what is told of the first event leads to the text from which the rest of the run is told.
-/

namespace CellStitch

namespace Document

/-- The text of a server after what it was told of some events, which may be nothing. -/
def mirror (t : Text) : List (Option Update) → Option Text
  | [] => some t
  | none :: updates => mirror t updates
  | some u :: updates => (Edit.applyAll t u.edits).bind fun t ↦ mirror t updates

/-- The updates among what is told of some events. -/
def told (updates : List (Option Update)) : List Update := updates.filterMap id

/-! ### What is told of a run -/

/-- A run from a document to a settled one that is accounted for by what is told of it. -/
structure SoundRun (d : Document) (updates : List (Option Update)) (d' : Document) : Prop where
  settled : d'.Settled
  sameSetup : d.SameSetup d'
  mirror_eq : mirror d.text updates = some d'.text
  version_eq : d'.version = d.version + (told updates).length
  /-- Every update has the version behind the one before it. -/
  versions_eq : (told updates).map Update.version =
    List.range' (d.version + 1) (told updates).length
  uri_eq : ∀ u ∈ told updates, u.uri = d.uri

/-- **A sound step in front of a sound run** makes a sound run. -/
theorem SoundStep.cons {d d₁ d' : Document} {update : Option Update} {rest : List (Option Update)}
    (hstep : d.SoundStep update d₁) (hrun : d₁.SoundRun rest d') :
    d.SoundRun (update :: rest) d' := by
  have hsame := hstep.sameSetup
  have hannounces := hstep.announces
  cases update with
  | none =>
    obtain ⟨htext, hversion⟩ := hannounces
    refine ⟨hrun.settled, hsame.trans hrun.sameSetup, ?_, ?_, ?_, ?_⟩
    · rw [mirror, ← htext]
      exact hrun.mirror_eq
    · rw [← hversion]
      exact hrun.version_eq
    · rw [← hversion]
      exact hrun.versions_eq
    · rw [← hsame.uri_eq]
      exact hrun.uri_eq
  | some u =>
    obtain ⟨huri, hu, hversion, hedits⟩ := hannounces
    have htold : told (some u :: rest) = u :: told rest := rfl
    refine ⟨hrun.settled, hsame.trans hrun.sameSetup, ?_, ?_, ?_, ?_⟩
    · rw [mirror, hedits, Option.bind_some]
      exact hrun.mirror_eq
    · rw [htold, List.length_cons, hrun.version_eq, hversion]
      omega
    · rw [htold, List.map_cons, hrun.versions_eq, hversion, hu, List.length_cons, List.range'_succ]
    · rw [htold, ← hsame.uri_eq]
      intro v hv
      rcases List.mem_cons.1 hv with rfl | hv
      · rw [huri, hsame.uri_eq]
      · exact hrun.uri_eq v hv

/-- A run of a settled document in which no event fails is accounted for by what is told of it. -/
theorem Settled.runAll? {d d' : Document} (hd : d.Settled) {events : List Event}
    {updates : List (Option Update)} (h : d.runAll? events = .ok (d', updates)) :
    d.SoundRun updates d' := by
  -- the invariant is `Settled`, which each step hands on to the next
  induction events generalizing d updates with
  | nil =>
    cases h
    exact ⟨hd, .refl d', rfl, rfl, rfl, fun u hu ↦ absurd hu List.not_mem_nil⟩
  | cons e events ih =>
    obtain ⟨d₁, update, rest, hstep, hrest, rfl⟩ := runAll?_cons_eq_ok_iff.1 h
    have hsound := hd.soundStep_of_handle hstep
    exact hsound.cons (ih hsound.settled hrest)

/-- A header that is a text is kept, so there is a document. -/
theorem exists_new {uri : String} {settings : Settings} {header : String}
    (h : settings.header uri = .text header) : ∃ d, Document.new uri settings = .ok d := by
  rw [Document.new, h, keptHeader]
  split <;> exact ⟨_, rfl⟩

/-- **The text at the server is the text of the document**, after every event of a run in which none
fails. What is told has the versions from 1 up to that of the document. Nothing is told only where
the text stays as it is, and what is told has the version that the document then has. -/
theorem mirror_eq_text {uri : String} {settings : Settings} {header : String}
    (h : settings.header uri = .text header) :
    ∃ d, Document.new uri settings = .ok d ∧
      ∀ events d' updates, d.runAll? events = .ok (d', updates) →
        updates.length = events.length ∧ ∀ k ≤ events.length,
          ∃ dₖ, d.runAll? (events.take k) = .ok (dₖ, updates.take k) ∧
            mirror [] (updates.take k) = some dₖ.text ∧
            (told (updates.take k)).map Update.version = List.range' 1 dₖ.version ∧
            (∀ u ∈ told (updates.take k), u.uri = uri) ∧
            (∀ e d'', dₖ.handle e = (d'', .ok none) → d''.text = dₖ.text) ∧
            ∀ e d'' u, dₖ.handle e = (d'', .ok (some u)) → u.version = d''.version := by
  obtain ⟨d, hnew⟩ := exists_new h
  obtain ⟨hsettled, -, htext, hversion, huri⟩ := settled_of_new hnew
  refine ⟨d, hnew, ?_⟩
  intro events d' updates hrun
  refine ⟨length_of_runAll? hrun, ?_⟩
  intro k _
  obtain ⟨dₖ, hk⟩ := runAll?_take hrun k
  have hsound := hsettled.runAll? hk
  refine ⟨dₖ, hk, ?_, ?_, ?_, ?_, ?_⟩
  · rw [← htext]
    exact hsound.mirror_eq
  · rw [hsound.versions_eq, hsound.version_eq, hversion, Nat.zero_add, Nat.zero_add]
  · rw [← huri]
    exact hsound.uri_eq
  · intro e d'' he
    exact (hsound.settled.soundStep_of_handle he).announces.1
  · intro e d'' u he
    obtain ⟨-, hu, hnext, -⟩ := (hsound.settled.soundStep_of_handle he).announces
    rw [hu, hnext]

/-- An annotation comes with the first edit and goes with the second. -/
theorem mirror_eq_text_headed :
    let events : List Event :=
      [.opened ⟨"nb-cell:a", "python", 1, "x = 1".toList⟩,
        .opened ⟨"nb-cell:b", "python", 1, "%run\r\ny".toList⟩,
        .changed "nb-cell:a" 2 [.ranged ⟨⟨0, 0⟩, ⟨0, 0⟩⟩ "!".toList, .ranged ⟨⟨0, 0⟩, ⟨0, 1⟩⟩ []],
        .closed "nb-cell:c", .refreshed [⟨"nb-cell:b", "python", 3, []⟩]]
    headed.settings.header headed.uri = .text "import m" ∧
      ∃ d' updates, headed.runAll? events = .ok (d', updates) ∧
        mirror [] updates = some d'.text ∧
        (told updates).map Update.version = List.range' 1 d'.version := by
  intro events
  have hheader : headed.settings.header headed.uri = .text "import m" := rfl
  refine ⟨hheader, ?_⟩
  obtain ⟨d, hnew, hall⟩ := mirror_eq_text hheader
  obtain rfl : headed = d := Except.ok.inj (new_headed.symm.trans hnew)
  obtain ⟨⟨d', updates⟩, hrun⟩ : ∃ r, headed.runAll? events = .ok r := ⟨_, rfl⟩
  obtain ⟨hlen, htakes⟩ := hall events d' updates hrun
  obtain ⟨dₖ, hk, hmirror, hversions, -⟩ := htakes events.length (Nat.le_refl _)
  rw [← hlen, List.take_length] at hmirror hversions
  rw [List.take_length, ← hlen, List.take_length, hrun] at hk
  cases hk
  exact ⟨d', updates, hrun, hmirror, hversions⟩

end Document

end CellStitch
