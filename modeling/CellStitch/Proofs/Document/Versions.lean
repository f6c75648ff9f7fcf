import CellStitch.Proofs.Document.Distinct
/-!
# Versions

A change is carried out only if its version is higher than the one that is stored for its cell. So a
change that came too late once comes too late for good, as long as the version of its cell does not
fall (`CellList.NotOlder`).

To open a cell again raises its version, and an edit takes the greater one of two. But a refresh
takes over the versions that it is told (`CellList.Readable.notOlder_after_replaced_iff`), so a
change that came too late may be carried out after it (`exists_outdated_change`). And where a URI
occurs twice, to close its first cell brings up the second one. Nothing else lets a version fall
(`Reachable.notOlder_handle_iff`).
-/

namespace CellStitch

/-- An edit that is applied never lowers the version. -/
theorem Cell.version_le_edited (c : Cell) (version : Int) (edits : List Edit) :
    c.version ≤ (c.edited version edits).1.version := by
  induction edits generalizing c with
  | nil => exact Int.le_refl _
  | cons e edits ih =>
    rw [edited]
    split
    · exact Int.le_refl _
    · exact Int.le_trans (Int.le_max_left _ _) (ih _)

/-- A change never lowers the version, also one that fails halfway. -/
theorem Cell.version_le_changed (c : Cell) (version : Int) (edits : List Edit) :
    c.version ≤ (c.changed version edits).1.version := by
  rw [changed]
  split
  · exact Int.le_refl _
  · exact c.version_le_edited version edits

namespace CellList

/-- If there is a cell with the URI among both, its version among the second ones is not lower. -/
def NotOlder (cells cells' : CellList) (uri : String) : Prop :=
  ∀ c c', cells.cell? uri = some c → cells'.cell? uri = some c' → c.version ≤ c'.version

instance (cells cells' : CellList) (uri : String) : Decidable (cells.NotOlder cells' uri) :=
  decidable_of_iff (∀ c ∈ cells.cell? uri, ∀ c' ∈ cells'.cell? uri, c.version ≤ c'.version)
    ⟨fun h c c' hc hc' ↦ h c hc c' hc', fun h c hc c' hc' ↦ h c c' hc hc'⟩

variable {cells cells' : CellList} {uri : String} {c : Cell}

section OneCell

theorem NotOlder.of_cell?_eq (h : cells'.cell? uri = cells.cell? uri) :
    cells.NotOlder cells' uri := by
  intro c c' hc hc'
  rw [h, hc] at hc'
  exact Int.le_of_eq (congrArg Cell.version (Option.some.inj hc'))

theorem notOlder_of_cell?_eq_none (h : cells.cell? uri = none) : cells.NotOlder cells' uri := by
  intro c c' hc
  rw [h] at hc
  cases hc

/-- A change that lets no version fall. -/
theorem notOlder_update {w : String} {g : Cell → Cell} (hg : ∀ c, c.uri = w → (g c).uri = w)
    (hversion : ∀ c, c.version ≤ (g c).version) : cells.NotOlder (cells.update w g) uri := by
  rcases Decidable.em (uri = w) with rfl | hne
  · intro c c' hc hc'
    obtain ⟨before, after, hfirst⟩ := exists_firstAt hc
    have hfirst' : (cells.update uri g).FirstAt uri before (g c) after :=
      ⟨hfirst.update g, hg c hfirst.uri_eq, hfirst.fresh⟩
    rw [hfirst'.cell?] at hc'
    rw [← Option.some.inj hc']
    exact hversion c
  · exact .of_cell?_eq (cell?_update cells hg hne)

/-- Opening a cell never lowers a version: the greater of the two stays. -/
theorem notOlder_after_opened (c : Cell) : cells.NotOlder (cells.after (.opened c)) uri := by
  rcases hopen : cells.openCell c with f | ⟨i, cells'⟩
  · rw [after, hopen]
    exact .of_cell?_eq rfl
  · rw [after_opened_of_ok hopen]
    rcases Decidable.em (c.uri = uri) with rfl | hne
    · rcases openCell_cases hopen with ⟨-, rfl⟩ | ⟨hnone, -, -⟩
      · refine notOlder_update (fun _ _ ↦ rfl) fun old ↦ ?_
        exact Int.le_trans (Int.le_of_lt (Int.lt_succ old.version)) (Int.le_max_left _ _)
      · exact notOlder_of_cell?_eq_none hnone
    · obtain ⟨s, rfl, rfl⟩ := exists_splice_openCell hne hopen
      exact .of_cell?_eq s.cell?_after

/-- Closing one of two cells with a URI can show an older one behind it. -/
theorem notOlder_after_closed_iff (closed : String) :
    cells.NotOlder (cells.after (.closed closed)) uri ↔
      (closed = uri → cells.NotOlder (cells.remove uri) uri) := by
  rw [after, closeCell]
  rcases hc : cells.cell? closed with - | c
  · refine iff_of_true (.of_cell?_eq rfl) ?_
    rintro rfl
    exact notOlder_of_cell?_eq_none hc
  · show cells.NotOlder (cells.remove closed) uri ↔ _
    rcases Decidable.em (closed = uri) with rfl | hne
    · exact ⟨fun h _ ↦ h, fun h ↦ h rfl⟩
    · obtain ⟨s, hbefore, hafter⟩ := exists_splice_remove hne hc
      refine iff_of_true (.of_cell?_eq ?_) fun huri ↦ absurd huri hne
      rw [← hafter, ← hbefore, s.cell?_after]

end OneCell

/-! ### Input boxes -/

section Boxes

/-- A box is found by its URI if none is there twice. -/
theorem cell?_eq_of_mem_boxes (hnodup : (cells.boxes.map Cell.uri).Nodup) (hc : c ∈ cells.boxes) :
    cells.cell? c.uri = some c := by
  rcases hfound : cells.cell? c.uri with - | x
  · exact absurd rfl (cell?_eq_none_iff.1 hfound c (List.mem_filter.1 hc).1)
  · obtain ⟨before, after, hfirst⟩ := exists_firstAt hfound
    have hx : x ∈ cells := by
      rw [hfirst.cells_eq]
      simp
    have hbox : x.isBox = true := by
      rw [Cell.isBox, Cell.isInput, hfirst.uri_eq]
      exact isBox_of_mem_boxes hc
    rw [List.inj_on_of_nodup_map hnodup (List.mem_filter.2 ⟨hx, hbox⟩) hc hfirst.uri_eq]

/-- The input box that stays behind other cells is as it was; else one of them may be older. -/
theorem notOlder_append_keptBox_iff (hnodup : (cells.boxes.map Cell.uri).Nodup)
    (incoming : CellList) :
    cells.NotOlder (incoming.others ++ (cells.keptBox? incoming).toList) uri ↔
      cells.NotOlder (incoming.others ++ incoming.boxes.getLast?.toList) uri := by
  rw [keptBox?]
  rcases hlast : incoming.boxes.getLast? with - | b
  · rw [Option.none_or, Option.toList_none, List.append_nil]
    rcases hkept : cells.boxes.getLast? with - | b
    · rw [Option.toList_none, List.append_nil]
    · have hb := List.mem_of_getLast? hkept
      rw [Option.toList_some]
      rcases Decidable.em (b.uri = uri) with rfl | hne
      · have hfresh : ∀ c ∈ incoming.others, c.uri ≠ b.uri := fun c hc ↦
          uri_ne_of_isBox (isBox_of_mem_others hc) (isBox_of_mem_boxes hb)
        have hfirst : FirstAt (incoming.others ++ [b]) b.uri incoming.others b [] :=
          ⟨rfl, rfl, hfresh⟩
        refine iff_of_true (.of_cell?_eq ?_) fun c c' _ hc' ↦ ?_
        · rw [hfirst.cell?, cell?_eq_of_mem_boxes hnodup hb]
        · rw [cell?_eq_none_iff.2 hfresh] at hc'
          cases hc'
      · have hsame : CellList.cell? (incoming.others ++ [b] ++ []) uri =
            CellList.cell? (incoming.others ++ []) uri :=
          Splice.cell?_append incoming.others [] fun c hc ↦ List.mem_singleton.1 hc ▸ hne
        rw [List.append_nil, List.append_nil] at hsame
        rw [NotOlder, NotOlder, hsame]
  · rw [Option.some_or]

/-- **Cells that are put in place of all** may be older. -/
theorem Readable.notOlder_after_replaced_iff (h : cells.Readable)
    (hnodup : (cells.boxes.map Cell.uri).Nodup) (incoming : CellList) :
    cells.NotOlder (cells.after (.replaced incoming)) uri ↔ (incoming.Readable →
      cells.NotOlder (incoming.others ++ incoming.boxes.getLast?.toList) uri) := by
  rw [h.after_replaced]
  split
  · rename_i hread
    exact (notOlder_append_keptBox_iff hnodup incoming).trans
      ⟨fun hall _ ↦ hall, fun hall ↦ hall hread⟩
  · rename_i hread
    exact iff_of_true (.of_cell?_eq rfl) fun hread' ↦ absurd hread' hread

end Boxes

end CellList

namespace Document

open CellList (Readable NotOlder)

variable {d : Document} {uri : String}

/-! ### Events -/

/-- An event brings no older version of the cell with a URI: none is in the snapshot of a refresh,
and where the cell is closed and its URI is there once more, the second cell is not older. -/
def BringsNoOlder (d : Document) (uri : String) : Event → Prop
  | .opened _ => True
  | .changed _ _ _ => True
  | .closed closed => closed = uri → d.cells.NotOlder (d.cells.remove uri) uri
  | .refreshed cells => ∀ taken, d.accepted cells = .ok taken → Readable taken →
    d.cells.NotOlder (taken.others ++ taken.boxes.getLast?.toList) uri

/-- **What lets no version fall**, of the events. They may fail. -/
theorem Reachable.notOlder_handle_iff (h : Reachable d) (uri : String) (e : Event) :
    d.cells.NotOlder (d.handle e).1.cells uri ↔ d.BringsNoOlder uri e := by
  have hread := h.readable
  cases e with
  | opened c =>
    refine iff_of_true ?_ trivial
    by_cases hc : d.accepts c = .ok true
    · rw [cells_handle_opened hread hc]
      exact CellList.notOlder_after_opened c
    · rw [handle_opened_of_ne hc]
      exact .of_cell?_eq rfl
  | changed changed version edits =>
    refine iff_of_true ?_ trivial
    rw [(h.settled.handle_changed changed version edits).1]
    exact CellList.notOlder_update (fun c huri ↦ (Cell.uri_changed c).trans huri)
      fun c ↦ c.version_le_changed version edits
  | closed closed =>
    rw [cells_handle_closed hread]
    exact CellList.notOlder_after_closed_iff closed
  | refreshed cells =>
    rw [BringsNoOlder]
    rcases htaken : d.accepted cells with f | taken
    · rw [handle_refreshed_of_error (f := f) (by rw [htaken]; rfl)]
      exact iff_of_true (.of_cell?_eq rfl) (by simp)
    · simp only [Except.ok.injEq, forall_eq']
      rw [cells_handle_refreshed hread htaken]
      exact hread.notOlder_after_replaced_iff h.nodup_uris_boxes taken

/-- **A cell that stays open** has no lower version after a run than before it, if no event of the
run brings an older one. -/
theorem Reachable.exists_cell?_run (h : Reachable d) {c : Cell} (hc : d.cells.cell? uri = some c)
    {events : List Event}
    (hbrings : ∀ k e, events[k]? = some e → (d.run (events.take k)).BringsNoOlder uri e)
    (hopen : ∀ k ≤ events.length, uri ∈ (d.run (events.take k)).cellUris) (k : Nat) :
    ∃ c', (d.run (events.take k)).cells.cell? uri = some c' ∧ c.version ≤ c'.version := by
  induction k with
  | zero => exact ⟨c, hc, Int.le_refl _⟩
  | succ k ih =>
    rcases he : events[k]? with - | e
    · rwa [List.take_add_one, he, Option.toList_none, List.append_nil]
    · obtain ⟨c₁, hc₁, hle⟩ := ih
      have hnext : d.run (events.take (k + 1)) = ((d.run (events.take k)).handle e).1 :=
        foldl_take_succ _ d he
      rcases hc' : (d.run (events.take (k + 1))).cells.cell? uri with - | c'
      · have hk : k < events.length := (List.getElem?_eq_some_iff.1 he).1
        obtain ⟨x, hx, huri⟩ := List.mem_map.1 (hopen (k + 1) hk)
        exact absurd huri (CellList.cell?_eq_none_iff.1 hc' x hx)
      · refine ⟨c', rfl, Int.le_trans hle ?_⟩
        rw [hnext] at hc'
        exact ((h.run _).notOlder_handle_iff uri e).2 (hbrings k e he) c₁ c' hc₁ hc'

/-- **The version of a cell that stays open falls** exactly with an event that brings an older one.
If none does, a change that came too late before a run comes too late after it. -/
theorem Reachable.notOlder_iff_and_outdated (h : Reachable d) (uri : String) :
    (∀ e, d.cells.NotOlder (d.handle e).1.cells uri ↔ d.BringsNoOlder uri e) ∧
      ∀ events : List Event,
        (∀ k e, events[k]? = some e → (d.run (events.take k)).BringsNoOlder uri e) →
        (∀ k ≤ events.length, uri ∈ (d.run (events.take k)).cellUris) →
        ∀ c version edits, d.cells.cell? uri = some c → version ≤ c.version →
          (d.run events).handle (.changed uri version edits) = (d.run events, .ok none) := by
  refine ⟨h.notOlder_handle_iff uri, ?_⟩
  intro events hbrings hopen c version edits hc hversion
  obtain ⟨c', hc', hle⟩ := h.exists_cell?_run hc hbrings hopen events.length
  rw [List.take_length] at hc'
  exact changeCell_eq_self hc' (Int.le_trans hversion hle) edits

/-- A change with the version that a cell was opened with comes too late after the cell was opened
again, and after a refresh with a higher version. One with a lower version brings an older cell. -/
theorem Reachable.notOlder_iff_and_outdated_raised :
    let d := headed.run [.opened ⟨"nb-cell:a", "python", 5, "x".toList⟩]
    let events : List Event := [.opened ⟨"nb-cell:a", "python", 1, "y".toList⟩,
      .refreshed [⟨"nb-cell:b", "python", 1, []⟩, ⟨"nb-cell:a", "python", 7, "z".toList⟩],
      .closed "nb-cell:b"]
    Reachable d ∧ ¬ d.BringsNoOlder "nb-cell:a" (.refreshed [⟨"nb-cell:a", "python", 4, []⟩]) ∧
      (d.run events).handle (.changed "nb-cell:a" 5 [.whole []]) = (d.run events, .ok none) := by
  intro d events
  have hreach : Reachable d := reachable_headed.run _
  obtain ⟨hiff, hrun⟩ := hreach.notOlder_iff_and_outdated "nb-cell:a"
  refine ⟨hreach, ?_, ?_⟩
  · rw [← hiff]
    decide +kernel
  · have hbrings : ∀ k e, events[k]? = some e →
        (d.run (events.take k)).BringsNoOlder "nb-cell:a" e := by
      intro k e he
      have hstep := ((hreach.run (events.take k)).notOlder_handle_iff "nb-cell:a" e).1
      rcases k with - | - | - | k <;> cases he
      all_goals exact hstep (by decide +kernel)
    have hopen : ∀ k ≤ events.length, "nb-cell:a" ∈ (d.run (events.take k)).cellUris := by
      decide +kernel
    exact hrun events hbrings hopen ⟨"nb-cell:a", "python", 5, "x".toList⟩ 5 [.whole []]
      (by decide +kernel) (Int.le_refl 5)

/-- **A change that came too late may be carried out later**: a refresh with an older version of the
cell lets its version fall. -/
theorem exists_outdated_change :
    let d := headed.run [.opened ⟨"nb-cell:a", "python", 5, "x".toList⟩]
    let d' := (d.handle (.refreshed [⟨"nb-cell:a", "python", 1, "y".toList⟩])).1
    let late : Event := .changed "nb-cell:a" 3 [.whole "z".toList]
    Reachable d ∧ (d.handle late).2 = .ok none ∧
      (d.handle (.refreshed [⟨"nb-cell:a", "python", 1, "y".toList⟩])).2 =
        .ok (some ⟨"file:///n.py", 2, [.whole "import m\ny\n".toList]⟩) ∧
      ¬ d.cells.NotOlder d'.cells "nb-cell:a" ∧
      (d'.handle late).2 =
        .ok (some ⟨"file:///n.py", 3, [.ranged ⟨⟨1, 0⟩, ⟨1, 1⟩⟩ "z".toList]⟩) := by
  refine ⟨reachable_headed.run _, ?_⟩
  decide +kernel

end Document

end CellStitch
