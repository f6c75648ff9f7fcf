import CellStitch.Proofs.Cell.OpenedInTurn
import CellStitch.Proofs.Document.Mirror
import CellStitch.Proofs.Document.Operations
/-!
# Refreshed documents

A refresh leads to the same document as to start again, and to open the cells of the snapshot in
turn (`handle_refreshed_eq_runAll?`), provided that their URIs are distinct and that there is one
input box among them at most. What the document was before counts for nothing, apart from its last
input box, which stays if the snapshot has none. The versions differ, because they count what was
sent.

On the side of the cells this is `CellList.openAll_eq_replaceAll`. Both ways come to settled
documents with the same setup, and so the cells decide the rest.
-/

namespace CellStitch.Document

open CellList (Readable)

variable {d d' : Document}

/-- Every cell that is taken of some is one that the document takes. -/
theorem accepts_of_mem_accepted {cells : List Cell} {taken : CellList}
    (htaken : d.accepted cells = .ok taken) : ∀ c ∈ taken, d.accepts c = .ok true := by
  induction cells generalizing taken with
  | nil =>
    obtain rfl := Except.ok.inj htaken
    exact fun c hc ↦ absurd hc List.not_mem_nil
  | cons c cells ih =>
    obtain ⟨take, hc, htaken⟩ := bind_eq_ok_iff.1 htaken
    obtain ⟨rest, hrest, htaken⟩ := bind_eq_ok_iff.1 htaken
    obtain rfl := Except.ok.inj htaken
    cases take with
    | true => exact List.forall_mem_cons.2 ⟨hc, ih hrest⟩
    | false => exact ih hrest

/-- An input box is taken whatever its language is. -/
theorem accepts_of_isBox (d : Document) {c : Cell} (hc : c.isBox = true) :
    d.accepts c = .ok true := by
  rw [accepts, CellList.isBox_iff.1 hc, ite_self]

/-- So is every one of those that are opened in place of the old ones. -/
theorem accepts_of_mem_withOldBox {cells : List Cell} {taken : CellList} {c : Cell}
    (htaken : d.accepted cells = .ok taken) (hc : c ∈ d.cells.withOldBox taken) :
    d.accepts c = .ok true := by
  rcases List.mem_append.1 hc with hc | hc
  · exact accepts_of_mem_accepted htaken c hc
  · split at hc
    · exact d.accepts_of_isBox
        (CellList.isBox_of_mem_boxes (List.mem_of_getLast? (Option.mem_toList.1 hc)))
    · exact absurd hc List.not_mem_nil

/-- **Where a document arises from, another one can start again** with the same setup. -/
theorem Reachable.exists_new (h : Reachable d) :
    ∃ fresh, Document.new d.uri d.settings = .ok fresh ∧ fresh.SameSetup d := by
  induction h with
  | @new uri settings d h =>
    obtain ⟨header, hheader, hd⟩ := bind_eq_ok_iff.1 h
    obtain rfl := Except.ok.inj hd
    exact ⟨_, h, .refl _⟩
  | handle h e ih =>
    have hsame := (h.settled.handle e).sameSetup
    obtain ⟨fresh, hfresh, hsame'⟩ := ih
    rw [hsame.uri_eq, hsame.settings_eq]
    exact ⟨fresh, hfresh, hsame'.trans hsame⟩

/-- **Cells that are taken and opened in turn** are opened in turn among the cells. -/
theorem map_cells_runAll?_opened (hread : Readable d.cells) (hd : d.Settled) {new : List Cell}
    (hnew : ∀ c ∈ new, d.accepts c = .ok true) :
    (d.runAll? (new.map .opened)).map (·.1.cells) = d.cells.openAll new := by
  induction new generalizing d with
  | nil => rfl
  | cons c new ih =>
    have hc := hnew c List.mem_cons_self
    rw [List.map_cons, runAll?, CellStitch.runAll?]
    rcases hopen : d.cells.openCell c with f | ⟨i, cells⟩
    · rw [handle_opened_of_error hc hopen, CellList.openAll, hopen]
      rfl
    · have hread' := hread.after (.opened c)
      obtain ⟨d', update, hhandle, hcells⟩ := exists_handle_opened hread hc hopen
      have hsound := hd.soundStep_of_handle hhandle
      rw [CellList.after_opened_of_ok hopen, ← hcells] at hread'
      have hnew' : ∀ c ∈ new, d'.accepts c = .ok true := fun x hx ↦
        (hsound.sameSetup.accepts_eq x).trans (hnew x (List.mem_cons_of_mem c hx))
      rw [CellList.openAll_cons_of_ok hopen, ← hcells, ← ih hread' hsound.settled hnew', hhandle]
      show (d'.runAll? (new.map .opened) >>= _).map _ = _
      rcases d'.runAll? (new.map .opened) with f | r <;> rfl

/-- **A refresh is the same as to start again** and to open the cells that are taken in turn, in
their order, if their URIs are distinct and there is one input box among them at most; if there is
none, the last one that was there before is opened behind them. Both ways fail alike if a cell
cannot be read. The documents differ in nothing but the version. -/
theorem handle_refreshed_eq_runAll? (h : Reachable d) {cells : List Cell} {taken : CellList}
    (htaken : d.accepted cells = .ok taken) (hnodup : (taken.map Cell.uri).Nodup)
    (hone : taken.boxes.length ≤ 1) :
    ∃ fresh, Document.new d.uri d.settings = .ok fresh ∧
      (Readable taken → ∃ d' update fresh' updates,
        d.handle (.refreshed cells) = (d', .ok update) ∧
        fresh.runAll? ((d.cells.withOldBox taken).map .opened) = .ok (fresh', updates) ∧
        d' = { fresh' with version := d'.version } ∧
        update = if d'.text = d.text then none
          else some ⟨d.uri, d.version + 1, [.whole d'.text]⟩) ∧
      (¬ Readable taken → ∃ f,
        d.handle (.refreshed cells) = (d, .error f) ∧
        fresh.runAll? ((d.cells.withOldBox taken).map .opened) = .error f) := by
  obtain ⟨fresh, hnew, hsame⟩ := h.exists_new
  obtain ⟨hfresh, hnocells, -⟩ := settled_of_new hnew
  have haccepts : ∀ c ∈ d.cells.withOldBox taken, fresh.accepts c = .ok true := fun c hc ↦
    (hsame.accepts_eq c).symm.trans (accepts_of_mem_withOldBox htaken hc)
  have hread : Readable fresh.cells := hnocells ▸ CellList.readable_nil
  -- the cells of the new document are those that the refresh leaves behind
  have hcells := map_cells_runAll?_opened hread hfresh haccepts
  rw [hnocells, CellList.openAll_eq_replaceAll h.readable hnodup hone] at hcells
  refine ⟨fresh, hnew, ?_⟩
  rcases h.readable.replaceAll_cases taken with ⟨hread, hreplace⟩ | ⟨hread, f, hreplace⟩
  · -- all cells can be read, so they are replaced and opened
    refine ⟨fun _ ↦ ?_, fun hnot ↦ absurd hread hnot⟩
    have hread' := h.readable.after (.replaced taken)
    rw [CellList.after, hreplace] at hread'
    obtain ⟨d', update, hhandle, hd'cells, hupdate⟩ :=
      exists_handle_refreshed (by rw [htaken, ok_bind, hreplace]) hread'
    rw [hreplace] at hcells
    rcases hrun : fresh.runAll? ((d.cells.withOldBox taken).map .opened) with f | ⟨fresh', updates⟩
    · rw [hrun] at hcells
      cases hcells
    · rw [hrun] at hcells
      have hfresh'cells : fresh'.cells = _ := Except.ok.inj hcells
      have hsound := hfresh.runAll? hrun
      have hstep := h.settled.soundStep_of_handle hhandle
      have hsame' := hsound.sameSetup.symm.trans (hsame.trans hstep.sameSetup)
      refine ⟨d', update, fresh', updates, hhandle, rfl, ?_, hupdate⟩
      exact (hsound.settled.withVersion d'.version).eq_of_cells_eq hstep.settled
        ⟨hsame'.uri_eq, hsame'.settings_eq, hsame'.header_eq⟩ (hd'cells.trans hfresh'cells.symm) rfl
  · -- one cannot, and so neither way goes through
    refine ⟨fun hread' ↦ absurd hread' hread, fun _ ↦ ?_⟩
    refine ⟨f, handle_refreshed_of_error (by rw [htaken, ok_bind, hreplace]), ?_⟩
    rw [hreplace] at hcells
    rcases hrun : fresh.runAll? ((d.cells.withOldBox taken).map .opened) with g | r
    · rw [hrun] at hcells
      exact congrArg _ (Except.error.inj hcells)
    · rw [hrun] at hcells
      cases hcells

/-- The input box that was edited stays behind cells that change their order and their texts. The
cell of another language is not taken. -/
theorem handle_refreshed_eq_runAll?_headed :
    let box : Cell := ⟨"vscode-interactive-input:/1.interactive#box", "python", 1, "z".toList⟩
    let d := headed.run [.opened ⟨"nb-cell:a", "python", 1, "x".toList⟩, .opened box,
      .changed box.uri 3 [.ranged ⟨⟨0, 0⟩, ⟨0, 0⟩⟩ "%".toList]]
    let b : Cell := ⟨"nb-cell:b", "python", 7, "%run".toList⟩
    let a : Cell := ⟨"nb-cell:a", "python", 0, "y".toList⟩
    Reachable d ∧ d.accepted [b, ⟨"nb-cell:m", "markdown", 1, []⟩, a] = .ok [b, a] ∧
      ([b, a].map Cell.uri).Nodup ∧ (CellList.boxes [b, a]).length ≤ 1 ∧
      ∃ d' update fresh' updates,
        d.handle (.refreshed [b, ⟨"nb-cell:m", "markdown", 1, []⟩, a]) = (d', .ok update) ∧
        headed.runAll? [.opened b, .opened a,
          .opened { box with version := 3, text := "%z".toList }] = .ok (fresh', updates) ∧
        d' = { fresh' with version := d'.version } ∧
        update = if d'.text = d.text then none
          else some ⟨d.uri, d.version + 1, [.whole d'.text]⟩ := by
  intro box d b a
  have hreach : Reachable d := reachable_headed.run _
  have htaken : d.accepted [b, ⟨"nb-cell:m", "markdown", 1, []⟩, a] = .ok [b, a] := by
    decide +kernel
  have hnodup : ([b, a].map Cell.uri).Nodup := by decide
  have hone : (CellList.boxes [b, a]).length ≤ 1 := by decide +kernel
  have hread : Readable [b, a] := by decide +kernel
  have hopens : d.cells.withOldBox [b, a] =
      [b, a, { box with version := 3, text := "%z".toList }] := by decide +kernel
  obtain ⟨-, hsame⟩ := reachable_headed.settled.run [.opened ⟨"nb-cell:a", "python", 1, "x".toList⟩,
    .opened box, .changed box.uri 3 [.ranged ⟨⟨0, 0⟩, ⟨0, 0⟩⟩ "%".toList]]
  obtain ⟨fresh, hnew, hok, -⟩ := handle_refreshed_eq_runAll? hreach htaken hnodup hone
  rw [hsame.uri_eq, hsame.settings_eq] at hnew
  obtain rfl : headed = fresh := Except.ok.inj (new_headed.symm.trans hnew)
  have hall := hok hread
  rw [hopens] at hall
  exact ⟨hreach, htaken, hnodup, hone, hall⟩

end CellStitch.Document
