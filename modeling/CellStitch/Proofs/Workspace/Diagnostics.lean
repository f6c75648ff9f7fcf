import CellStitch.Proofs.Document.Reported
import CellStitch.Proofs.Workspace.Owners
import Mathlib.Data.List.Induction
/-!
# Diagnostics brought back to the cells

A server reports diagnostics on a document, perhaps on an older text of it. Bringing them back never
fails, loses only what starts behind the end or in the header, and groups the rest by the cells
(`toNotebookDiagnostics_eq`).

The groups are built in one pass over the diagnostics, each of which is added to the group of its
cell (`addTo_map`). What comes out has for each cell what a scan of all diagnostics finds for it
(`group_map`).
-/

namespace CellStitch

namespace Document

/-- A diagnostic as it is reported in a cell, if it is reported there. -/
def reportedIn (d : Document) (cell : String) (x : Diagnostic) : Option Diagnostic :=
  match d.reported x.range with
  | .ok (some l) => if l.uri = cell then some { x with range := l.range } else none
  | _ => none

theorem reportedIn_eq_none {d : Document} {x : Diagnostic} (h : d.reported x.range = .ok none)
    (cell : String) : d.reportedIn cell x = none := by
  rw [reportedIn, h]

theorem reportedIn_eq_ite {d : Document} {x : Diagnostic} {l : Location}
    (h : d.reported x.range = .ok (some l)) (cell : String) :
    d.reportedIn cell x = if cell = l.uri then some { x with range := l.range } else none := by
  rw [reportedIn, h]
  exact if_congr eq_comm rfl rfl

end Document

namespace Workspace

/-! ### Groups -/

/-- A URI behind others is one more, if it is not among them. -/
theorem eraseDups_append_singleton (cells : List String) (cell : String) :
    (cells ++ [cell]).eraseDups =
      if cell ∈ cells then cells.eraseDups else cells.eraseDups ++ [cell] := by
  rw [List.eraseDups_append, List.removeAll]
  split
  · rename_i hmem
    simp [hmem]
  · rename_i hnew
    simp [hnew, List.eraseDups_cons]

theorem nodup_eraseDups (cells : List String) : cells.eraseDups.Nodup := by
  induction cells using List.reverseRecOn with
  | nil => exact List.nodup_nil
  | append_singleton cells cell ih =>
    rw [eraseDups_append_singleton]
    split
    · exact ih
    · rename_i hnew
      have hnot : cell ∉ cells.eraseDups := by rwa [List.mem_eraseDups]
      exact List.nodup_append_comm.1 (List.nodup_cons.2 ⟨hnot, ih⟩)

/-- The cells have a group each, in the order in which they come first. -/
theorem emptyGroups_eq (cells : List String) :
    emptyGroups cells = cells.eraseDups.map fun cell ↦ (cell, []) := by
  induction cells using List.reverseRecOn with
  | nil => rfl
  | append_singleton cells cell ih =>
    rw [emptyGroups] at ih ⊢
    rw [List.foldl_append, List.foldl_cons, List.foldl_nil, ih, eraseDups_append_singleton]
    rcases Decidable.em (cell ∈ cells) with hmem | hnew
    · rw [if_pos hmem, if_pos (by simpa using hmem)]
    · rw [if_neg hnew, if_neg (by simpa using hnew), List.map_append]
      rfl

section Groups

variable {keys : List String} {cell : String} {d : Document}

/-- What is added to a group is added to no other. -/
theorem addTo_map (hkeys : keys.Nodup) (hcell : cell ∈ keys) (x : Diagnostic)
    (found : String → List Diagnostic) :
    addTo cell x (keys.map fun k ↦ (k, found k)) =
      keys.map fun k ↦ (k, if k = cell then found k ++ [x] else found k) := by
  induction keys with
  | nil => exact absurd hcell List.not_mem_nil
  | cons k keys ih =>
    obtain ⟨hnot, hkeys⟩ := List.nodup_cons.1 hkeys
    rw [List.map_cons, List.map_cons, addTo]
    split
    · rename_i heq
      subst heq
      congr 1
      refine List.map_congr_left fun k' hk' ↦ ?_
      rw [if_neg]
      rintro rfl
      exact hnot hk'
    · rename_i hne
      rw [ih hkeys ((List.mem_cons.1 hcell).resolve_left fun heq ↦ hne heq.symm)]

/-- **One pass over the diagnostics** finds for each cell what a scan for that cell finds. -/
theorem group_map (hkeys : keys.Nodup) {diagnostics : List Diagnostic}
    (hreported : ∀ x ∈ diagnostics, d.reported x.range = .ok none ∨
      ∃ l, d.reported x.range = .ok (some l) ∧ l.uri ∈ keys) (found : String → List Diagnostic) :
    group d (keys.map fun k ↦ (k, found k)) diagnostics =
      .ok (keys.map fun k ↦ (k, found k ++ diagnostics.filterMap (d.reportedIn k))) := by
  induction diagnostics generalizing found with
  | nil => simp [group]
  | cons x diagnostics ih =>
    have ih := ih fun y hy ↦ hreported y (List.mem_cons_of_mem x hy)
    rw [group]
    rcases hreported x List.mem_cons_self with hnone | ⟨l, hl, hmem⟩
    · rw [hnone, ok_bind]
      dsimp only
      rw [ih]
      simp only [List.filterMap_cons, Document.reportedIn_eq_none hnone]
    · rw [hl, ok_bind]
      dsimp only
      rw [addTo_map hkeys hmem, ih]
      congr 1
      refine List.map_congr_left fun k _ ↦ ?_
      rw [List.filterMap_cons, Document.reportedIn_eq_ite hl]
      split <;> simp

end Groups

/-- What is found for the cells of a document. -/
theorem group_emptyGroups {d : Document} (hd : d.Settled) (diagnostics : List Diagnostic) :
    group d (emptyGroups d.cellUris) diagnostics = .ok (d.cellUris.eraseDups.map fun cell ↦
      (cell, diagnostics.filterMap (d.reportedIn cell))) := by
  rw [emptyGroups_eq]
  refine (group_map (nodup_eraseDups _) (fun x _ ↦ ?_) fun _ ↦ []).trans ?_
  · rcases hd.reported_cases x.range with ⟨-, hnone⟩ | ⟨-, l, i, c, first, hl, hreports⟩
    · exact .inl hnone
    · refine .inr ⟨l, hl, ?_⟩
      obtain ⟨spans, o, hc, -⟩ := hreports.exists_shows
      rw [List.mem_eraseDups, hreports.uri_eq]
      exact List.mem_map_of_mem (List.mem_of_getElem? hc)
  · simp only [List.nil_append]

/-- **Diagnostics are brought back without failure and without loss.** Each cell of the document has
one group, in the order in which the cells come first; it has the diagnostics of the cell in the
order in which they came, with nothing changed but the range.

A diagnostic is in no group exactly if it starts behind the end of the document or in the header.
Every other one is in the group of the cell that shows where it starts, and in no other. Its range
there is one of the first cell with that URI, with its ends in order; this is the cell that shows
it, unless a cell in front of that one has the same URI. -/
theorem toNotebookDiagnostics_eq {w : Workspace} (h : Reachable w) {uri : String} {d : Document}
    (hd : w.document? uri = some d) (diagnostics : List Diagnostic) :
    w.toNotebookDiagnostics uri diagnostics = .ok (d.cellUris.eraseDups.map fun cell ↦
        (cell, diagnostics.filterMap (d.reportedIn cell))) ∧
      d.cellUris.eraseDups.Nodup ∧ d.leadingHeader <+: d.text ∧
      ∀ x : Diagnostic,
        ((∀ cell, d.reportedIn cell x = none) ↔ d.lineCount ≤ x.range.start.line ∨
          ∃ o, d.offsetAt x.range.start = .ok o ∧ o < d.leadingHeader.length) ∧
        ((∃ cell, d.reportedIn cell x ≠ none) →
          ∃ (i : Nat) (c first : Cell) (spans : List Span) (o : Nat) (range : Range),
            d.cells[i]? = some c ∧ d.spans[i]? = some spans ∧
            d.offsetAt x.range.start = .ok o ∧ Span.startOf spans ≤ o ∧ o < Span.stopOf spans ∧
            (∀ cell, d.reportedIn cell x =
              if cell = c.uri then some { x with range := range } else none) ∧
            d.cells.cell? c.uri = some first ∧ first.text.HasPosition range.start ∧
            first.text.HasPosition range.stop ∧ range.start ≤ range.stop ∧
            ((∀ c' ∈ d.cells.take i, c'.uri ≠ c.uri) → first = c)) := by
  have hsettled := (h.sound.reachable d (mem_of_document?_eq_some hd).1).settled
  refine ⟨?_, nodup_eraseDups _, hsettled.leadingHeader_prefix, fun x ↦ ?_⟩
  · rw [toNotebookDiagnostics, hd]
    exact group_emptyGroups hsettled diagnostics
  rcases hsettled.reported_cases x.range with ⟨hskips, hnone⟩ | ⟨hnot, l, i, c, first, hl, hreports⟩
  · refine ⟨iff_of_true (fun cell ↦ Document.reportedIn_eq_none hnone cell) hskips, ?_⟩
    rintro ⟨cell, hcell⟩
    exact absurd (Document.reportedIn_eq_none hnone cell) hcell
  · obtain ⟨spans, o, hc, hspans, ho, hstart, hstop⟩ := hreports.exists_shows
    have hreported := Document.reportedIn_eq_ite hl
    refine ⟨iff_of_false (fun hall ↦ ?_) hnot, fun _ ↦ ⟨i, c, first, spans, o, l.range, hc, hspans,
      ho, hstart, hstop, ?_, hreports.cell?_eq, hreports.hasPosition_start,
      hreports.hasPosition_stop, hreports.start_le_stop, fun hfirst ↦ ?_⟩⟩
    · have hsome := hreported l.uri
      rw [hall l.uri, if_pos rfl] at hsome
      cases hsome
    · rw [← hreports.uri_eq]
      exact hreported
    · exact Option.some.inj
        (hreports.cell?_eq.symm.trans (CellList.cell?_eq_of_getElem? hc hfirst))

/-- A diagnostic without anything that is not brought back anyway. -/
def plainDiagnostic (range : Range) (message : String) : Diagnostic :=
  ⟨range, message, .null, .null, .null⟩

/-- The messages and ranges of the diagnostics of each group. -/
def messagesOf (groups : Groups) : List (String × List (String × Range)) :=
  groups.map fun p ↦ (p.1, p.2.map fun x : Diagnostic ↦ (x.message, x.range))

/-- Found in an older text: one range starts in an annotation and stops behind the end, one starts
in the header, one runs into the next cell, one starts behind the end, and one is inverted. -/
theorem toNotebookDiagnostics_eq_outdated :
    let a := "vscode-notebook-cell://h/n.ipynb#a"
    let b := "vscode-notebook-cell://h/n.ipynb#b"
    let w := (Workspace.new (Settings.default.withHeader (.text "import m"))).run
      [.opened ⟨a, "python", 1, "x = 1".toList⟩ none,
        .opened ⟨b, "python", 1, "!ls\n%run\r\n".toList⟩ none]
    let diagnostics : List Diagnostic :=
      [plainDiagnostic ⟨⟨3, 6⟩, ⟨50, 0⟩⟩ "annotated", plainDiagnostic ⟨⟨0, 3⟩, ⟨1, 2⟩⟩ "header",
        plainDiagnostic ⟨⟨1, 4⟩, ⟨3, 2⟩⟩ "crossing", plainDiagnostic ⟨⟨5, 0⟩, ⟨5, 1⟩⟩ "behind",
        plainDiagnostic ⟨⟨2, 2⟩, ⟨2, 1⟩⟩ "inverted"]
    Reachable w ∧ ∃ d groups, w.document? "file://h/_NotebookConcat_n.ipynb.py" = some d ∧
      d.leadingHeader = "import m\n".toList ∧
      w.toNotebookDiagnostics "file://h/_NotebookConcat_n.ipynb.py" diagnostics = .ok groups ∧
      messagesOf groups =
        [(a, [("crossing", ⟨⟨0, 4⟩, ⟨0, 5⟩⟩)]),
          (b, [("annotated", ⟨⟨1, 4⟩, ⟨2, 0⟩⟩), ("inverted", ⟨⟨0, 2⟩, ⟨0, 2⟩⟩)])] := by
  intro a b w diagnostics
  have hw : Reachable w := (Reachable.new _).run _
  have hheader : (w.document? "file://h/_NotebookConcat_n.ipynb.py").map Document.leadingHeader =
      some "import m\n".toList := by decide +kernel
  obtain ⟨d, hd, hheader⟩ := Option.map_eq_some_iff.1 hheader
  have hgroups : (w.toNotebookDiagnostics "file://h/_NotebookConcat_n.ipynb.py"
      diagnostics).toOption.map messagesOf =
      some [(a, [("crossing", ⟨⟨0, 4⟩, ⟨0, 5⟩⟩)]),
        (b, [("annotated", ⟨⟨1, 4⟩, ⟨2, 0⟩⟩), ("inverted", ⟨⟨0, 2⟩, ⟨0, 2⟩⟩)])] := by
    decide +kernel
  have hall := (toNotebookDiagnostics_eq hw hd diagnostics).1
  rw [hall] at hgroups
  exact ⟨hw, d, _, hd, hheader, hall, Option.some.inj hgroups⟩

/-- **A range need not be one of the cell that shows it**: where a refresh lists a URI twice, what
is reported in the second cell gets a range of the first one, which has another text. -/
theorem exists_range_of_other_cell :
    ¬ ∀ (w : Workspace) (uri : String) (d : Document) (diagnostics : List Diagnostic)
      (groups : Groups), Reachable w → w.document? uri = some d →
        w.toNotebookDiagnostics uri diagnostics = .ok groups →
        ∀ x ∈ diagnostics, ∀ (i : Nat) (c : Cell) (spans : List Span) (o : Nat),
          d.cells[i]? = some c → d.spans[i]? = some spans → d.offsetAt x.range.start = .ok o →
          d.leadingHeader.length ≤ o → Span.startOf spans ≤ o → o < Span.stopOf spans →
          ∃ p ∈ groups, p.1 = c.uri ∧ ∃ y ∈ p.2, y.message = x.message ∧
            c.text.HasPosition y.range.start ∧ c.text.HasPosition y.range.stop := by
  intro hall
  let a := "vscode-notebook-cell:/n.ipynb#a"
  let c : Cell := ⟨a, "python", 1, "abc".toList⟩
  let uri := "file:///_NotebookConcat_n.ipynb.py"
  let w := (Workspace.new Settings.default).run
    [.refreshed "vscode-notebook:/n.ipynb" [⟨a, "python", 1, "x\ny".toList⟩, c]]
  let x := plainDiagnostic ⟨⟨2, 2⟩, ⟨2, 3⟩⟩ "m"
  have hheader : (w.document? uri).map (·.leadingHeader.length) = some 0 := by decide +kernel
  obtain ⟨d, hd, hheader⟩ := Option.map_eq_some_iff.1 hheader
  -- the second cell shows the diagnostic
  have hc : (w.document? uri).bind (·.cells[1]?) = some c := by decide +kernel
  have hplace : ((w.document? uri).bind (·.spans[1]?)).map
      (fun ss ↦ (Span.startOf ss, Span.stopOf ss)) = some (4, 8) := by decide +kernel
  have ho : (w.document? uri).map (·.offsetAt x.range.start) = some (.ok 6) := by decide +kernel
  have hfound : (w.toNotebookDiagnostics uri [x]).toOption.map messagesOf =
      some [(a, [("m", ⟨⟨1, 0⟩, ⟨1, 1⟩⟩)])] := by decide +kernel
  rw [hd] at hc hplace ho
  obtain ⟨spans, hspans, hends⟩ := Option.map_eq_some_iff.1 hplace
  obtain ⟨hstart, hstop⟩ := Prod.mk.inj hends
  rcases hgroups : w.toNotebookDiagnostics uri [x] with f | groups <;> rw [hgroups] at hfound
  · cases hfound
  · have hmessages : messagesOf groups = _ := Option.some.inj hfound
    obtain ⟨p, hp, -, y, hy, -, hposition, -⟩ := hall w uri d [x] groups ((Reachable.new _).run _)
      hd hgroups x List.mem_cons_self 1 c spans 6 hc hspans (Option.some.inj ho)
      (Nat.le_trans (Nat.le_of_eq hheader) (Nat.zero_le 6)) (by omega) (by omega)
    have hmem : (p.1, p.2.map fun x : Diagnostic ↦ (x.message, x.range)) ∈ messagesOf groups :=
      List.mem_map_of_mem hp
    rw [hmessages, List.mem_singleton] at hmem
    have hrange : (y.message, y.range) ∈ p.2.map fun x : Diagnostic ↦ (x.message, x.range) :=
      List.mem_map_of_mem hy
    rw [(Prod.mk.inj hmem).2, List.mem_singleton] at hrange
    rw [(Prod.mk.inj hrange).2] at hposition
    -- but the second cell has one line only
    obtain ⟨line, hline, -⟩ := hposition
    have hnone : c.text.lines[1]? = none := by decide
    cases hnone.symm.trans hline

end Workspace

end CellStitch
