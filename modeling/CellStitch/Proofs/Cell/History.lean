import CellStitch.Proofs.Cell.InputBoxes
import Mathlib.Data.List.Induction
import Mathlib.Data.List.Nodup
import Mathlib.Order.Bounds.Defs
/-!
# The order in which cells were opened

Cells that are no input boxes stand in the order in which they were opened, wherever input boxes
stand between them. A cell that was closed counts from when it was opened again, and one that was
only opened once more keeps its place (`indexOf?_run_lt_iff`).

The order is read off a run. A step *opens* a URI if no cell has it before the step and one has it
afterwards (`OpensAt`), and the URIs that are open bear the number of the last step that opened them
(`Stamped`). A step that brings no new URI keeps what is known of the numbers, since it can only
take URIs away (`Stamped.of_sublist`); a new cell bears the greatest number and comes behind all
cells of its kind (`Readable.others_openCell`).
-/

namespace CellStitch.CellList

variable {cells cells' : CellList} {c : Cell} {steps : List Step} {uri : String}

/-! ### The cells that are no input boxes -/

/-- The cells that are no boxes, in two lists as in one. -/
theorem others_append (cells cells' : CellList) :
    others (cells ++ cells') = cells.others ++ cells'.others := List.filter_append cells cells'

/-- Whether a URI is one of no input box, as far as it can be read. -/
def isOther (uri : String) : Bool := !(isInput uri).toOption.getD false

/-- A URI that is read as one of no box is one of no box. -/
theorem isOther_eq_true (h : isInput uri = .ok false) : isOther uri = true := by
  rw [isOther, h]
  rfl

/-- Their URIs are those among the URIs that are ones of no input boxes. -/
theorem map_uri_others (cells : CellList) :
    cells.others.map Cell.uri = (cells.map Cell.uri).filter isOther := by
  rw [others, List.filter_map]
  rfl

/-- **A new cell comes behind the cells of its kind.** At most an input box is behind it. -/
theorem Readable.others_openCell (h : cells.Readable) (hnew : cells.cell? c.uri = none) {i : Nat}
    (hopen : cells.openCell c = .ok (i, cells')) : cells'.others = cells.others ++ others [c] := by
  rcases hc : c.isInput with f | - | -
  · rw [openCell_of_error hnew hc] at hopen
    cases hopen
  · rcases List.eq_nil_or_concat cells with rfl | ⟨front, b, rfl⟩
    · rw [openCell_of_endsWithInput hnew hc rfl] at hopen
      cases hopen
      rfl
    · rw [List.concat_eq_append] at *
      have hb := h.isInput_eq (List.mem_append_right front List.mem_cons_self)
      rcases hbox : b.isBox with - | - <;> rw [hbox] at hb
      · have hends : endsWithInput (front ++ [b]) = .ok false := by
          rw [endsWithInput_append_singleton, hb]
        rw [openCell_of_endsWithInput hnew hc hends] at hopen
        cases hopen
        exact others_append _ _
      · rw [openCell_append_singleton hnew hc hb] at hopen
        cases hopen
        -- the input box that is now behind the new cell is none of the others
        have hnone : others [b] = [] := by rw [others_cons, hbox]; rfl
        rw [List.append_cons, others_append, others_append, others_append, hnone, List.append_nil,
          List.append_nil]
  · rw [openCell_of_isInput hnew hc] at hopen
    cases hopen
    exact others_append _ _

/-! ### Steps that open a URI -/

/-- The last step is taken behind all others. -/
theorem run_append_singleton (cells : CellList) (steps : List Step) (s : Step) :
    run cells (steps ++ [s]) = (run cells steps).after s :=
  List.foldl_append

/-- The cells of a run can all be read, since a cell that cannot is refused. -/
theorem readable_run (steps : List Step) : (run [] steps).Readable := by
  have hstep : ∀ (cells : CellList) (s : Step), cells.Readable → (cells.after s).Readable :=
    fun _ s h ↦ h.after s
  have hread := foldl_take_induction hstep readable_nil steps steps.length
  rwa [List.take_length] at hread

/-- A step opens a URI that was not open. -/
def Opens (cells : CellList) (s : Step) (uri : String) : Prop :=
  (∃ c, s = .opened c ∧ c.uri = uri) ∧ cells.has uri = false ∧ (cells.after s).has uri = true

/-- The step of a run that has the given number opens a URI. -/
def OpensAt (steps : List Step) (uri : String) (k : Nat) : Prop :=
  ∃ s, steps[k]? = some s ∧ Opens (run [] (steps.take k)) s uri

/-- A step at the end adds at most one opening, at its own place. -/
theorem opensAt_append_singleton_iff {s : Step} {k : Nat} : OpensAt (steps ++ [s]) uri k ↔
    OpensAt steps uri k ∨ (k = steps.length ∧ Opens (run [] steps) s uri) := by
  rcases Nat.lt_trichotomy k steps.length with hlt | rfl | hgt
  · rw [OpensAt, OpensAt, List.getElem?_append_left hlt,
      List.take_append_of_le_length (Nat.le_of_lt hlt)]
    exact ⟨.inl, fun h ↦ h.resolve_right fun h ↦ Nat.ne_of_lt hlt h.1⟩
  · simp [OpensAt]
  · have hnone : steps[k]? = none := List.getElem?_eq_none (Nat.le_of_lt hgt)
    have hnone' : (steps ++ [s])[k]? = none := by
      rw [List.getElem?_append_right (Nat.le_of_lt hgt)]
      exact List.getElem?_eq_none (by simp; omega)
    simp [OpensAt, hnone, hnone', Nat.ne_of_gt hgt]

/-- An opening has the place of one of the steps. -/
theorem OpensAt.lt_length {k : Nat} (h : OpensAt steps uri k) : k < steps.length := by
  obtain ⟨s, hs, -⟩ := h
  exact (List.getElem?_eq_some_iff.1 hs).1

section NewCell

variable {i : Nat} (hnew : cells.cell? c.uri = none) (hopen : cells.openCell c = .ok (i, cells'))
include hnew hopen

/-- A new cell adds its URI, wherever it is put. -/
theorem perm_uris_of_new : (cells'.map Cell.uri).Perm (c.uri :: cells.map Cell.uri) := by
  have hfresh : c.uri ∉ cells.map Cell.uri := by
    simpa using cell?_eq_none_iff.1 hnew
  rw [← List.insert_of_not_mem hfresh]
  exact perm_of_openCell hopen

/-- A new cell opens its URI. -/
theorem opens_opened_iff : Opens cells (.opened c) uri ↔ uri = c.uri := by
  constructor
  · rintro ⟨⟨x, hx, rfl⟩, -⟩
    rw [Step.opened.inj hx]
  · rintro rfl
    refine ⟨⟨c, rfl, rfl⟩, ?_, ?_⟩
    · rw [Bool.eq_false_iff, ne_eq, has_iff]
      simpa using cell?_eq_none_iff.1 hnew
    · rw [after_opened_of_ok hopen, has_iff, (perm_uris_of_new hnew hopen).mem_iff]
      exact List.mem_cons_self

end NewCell

/-! ### Open URIs and the steps that opened them -/

/-- Every open URI bears the number of the last step that opened it, and those of cells that are no
input boxes stand in the order of these numbers. -/
structure Stamped (steps : List Step) (stamp : String → Nat) : Prop where
  isGreatest : ∀ uri ∈ (run [] steps).map Cell.uri,
    IsGreatest {k | OpensAt steps uri k} (stamp uri)
  pairwise : ((run [] steps).others.map Cell.uri).Pairwise fun u v ↦ stamp u < stamp v

/-- A cell that is no box is one of the cells. -/
theorem mem_uris_of_mem_others (h : uri ∈ cells.others.map Cell.uri) : uri ∈ cells.map Cell.uri :=
  (List.filter_sublist.map Cell.uri).subset h

namespace Stamped

variable {stamp : String → Nat} {s : Step}

/-- **A step that brings no URI** opens none, and leaves the others in their order. -/
theorem of_sublist (h : Stamped steps stamp)
    (hsub : (((run [] steps).after s).map Cell.uri).Sublist ((run [] steps).map Cell.uri)) :
    Stamped (steps ++ [s]) stamp := by
  have hopens : ∀ uri, {k | OpensAt (steps ++ [s]) uri k} = {k | OpensAt steps uri k} := by
    intro uri
    ext k
    refine opensAt_append_singleton_iff.trans (or_iff_left ?_)
    rintro ⟨-, -, hbefore, hafter⟩
    rw [has_iff.2 (hsub.subset (has_iff.1 hafter))] at hbefore
    cases hbefore
  constructor
  · intro uri huri
    rw [run_append_singleton] at huri
    rw [hopens]
    exact h.isGreatest uri (hsub.subset huri)
  · have hpairwise := h.pairwise
    rw [map_uri_others] at hpairwise
    rw [run_append_singleton, map_uri_others]
    exact hpairwise.sublist (hsub.filter _)

/-- A step that leaves all URIs in their places leaves the stamps. -/
theorem of_eq (h : Stamped steps stamp)
    (heq : ((run [] steps).after s).map Cell.uri = (run [] steps).map Cell.uri) :
    Stamped (steps ++ [s]) stamp :=
  h.of_sublist (heq ▸ List.Sublist.refl _)

section Opened

variable {i : Nat} (h : Stamped steps stamp) (hnew : (run [] steps).cell? c.uri = none)
  (hopen : (run [] steps).openCell c = .ok (i, cells'))
include h hnew hopen

/-- The last step that opened an open URI is the new one for the new cell, and else the old one. -/
theorem isGreatest_of_opened {uri : String} (huri : uri ∈ cells'.map Cell.uri) :
    IsGreatest {k | OpensAt (steps ++ [.opened c]) uri k}
      (Function.update stamp c.uri steps.length uri) := by
  have hopens : ∀ {k}, OpensAt (steps ++ [.opened c]) uri k ↔
      OpensAt steps uri k ∨ (k = steps.length ∧ uri = c.uri) := by
    intro k
    rw [opensAt_append_singleton_iff, opens_opened_iff hnew hopen]
  rw [(perm_uris_of_new hnew hopen).mem_iff, List.mem_cons] at huri
  rcases Decidable.em (uri = c.uri) with rfl | hne
  · rw [Function.update_self]
    refine ⟨hopens.2 (.inr ⟨rfl, rfl⟩), fun k hk ↦ ?_⟩
    rcases hopens.1 hk with hk | ⟨rfl, -⟩
    · exact Nat.le_of_lt hk.lt_length
    · exact Nat.le_refl _
  · rw [Function.update_of_ne hne]
    have hold := h.isGreatest uri (huri.resolve_left hne)
    refine ⟨hopens.2 (.inl hold.1), fun k hk ↦ ?_⟩
    exact hold.2 ((hopens.1 hk).resolve_right fun hk ↦ hne hk.2)

/-- **A new cell bears the greatest number**, and comes behind the others. -/
theorem of_opened :
    Stamped (steps ++ [.opened c]) (Function.update stamp c.uri steps.length) := by
  have hafter : run [] (steps ++ [.opened c]) = cells' := by
    rw [run_append_singleton, after_opened_of_ok hopen]
  constructor
  · rw [hafter]
    exact fun uri ↦ h.isGreatest_of_opened hnew hopen
  · -- the new cell bears a number of its own, and the others keep theirs
    have hne : ∀ u ∈ (run [] steps).others.map Cell.uri, u ≠ c.uri := by
      rintro u hu rfl
      obtain ⟨x, hx, huri⟩ := List.mem_map.1 (mem_uris_of_mem_others hu)
      exact cell?_eq_none_iff.1 hnew x hx huri
    rw [hafter, (readable_run steps).others_openCell hnew hopen, List.map_append,
      List.pairwise_append]
    refine ⟨?_, ?_, ?_⟩
    · refine h.pairwise.imp_of_mem fun {u v} hu hv huv ↦ ?_
      rwa [Function.update_of_ne (hne u hu), Function.update_of_ne (hne v hv)]
    · rw [others_cons]
      split
      · exact .nil
      · exact List.pairwise_singleton _ _
    · intro u hu v hv
      obtain ⟨x, hx, rfl⟩ := List.mem_map.1 hv
      obtain rfl : x = c := List.mem_singleton.1 (List.mem_filter.1 hx).1
      rw [Function.update_of_ne (hne u hu), Function.update_self]
      exact (h.isGreatest u (mem_uris_of_mem_others hu)).1.lt_length

end Opened

end Stamped

/-- To open a cell again moves no cell. -/
theorem map_uri_after_opened (h : cells.has c.uri = true) :
    (cells.after (.opened c)).map Cell.uri = cells.map Cell.uri := by
  obtain ⟨i, hi⟩ := Option.isSome_iff_exists.1 h
  rw [after, openCell, hi]
  exact cells.map_uri_reopened c

/-- **The cells of a run are stamped**, if none are put in place of all. -/
theorem exists_stamped (hsteps : ∀ incoming, Step.replaced incoming ∉ steps) :
    ∃ stamp, Stamped steps stamp := by
  induction steps using List.reverseRecOn with
  | nil => exact ⟨fun _ ↦ 0, fun _ h ↦ absurd h List.not_mem_nil, .nil⟩
  | append_singleton steps s ih =>
    obtain ⟨stamp, h⟩ := ih fun incoming hmem ↦ hsteps incoming (List.mem_append_left _ hmem)
    cases s with
    | opened c =>
      rcases hhas : (run [] steps).has c.uri with - | -
      · have hnew : (run [] steps).cell? c.uri = none :=
          cell?_eq_none_of_indexOf? (by simpa [has] using hhas)
        rcases hopen : (run [] steps).openCell c with f | ⟨i, cells'⟩
        · -- a URI that cannot be read is not opened
          refine ⟨stamp, h.of_eq ?_⟩
          rw [after, hopen]
        · exact ⟨_, h.of_opened hnew hopen⟩
      · exact ⟨stamp, h.of_eq (map_uri_after_opened hhas)⟩
    | closed uri =>
      exact ⟨stamp, h.of_sublist ((after_closed_sublist _ uri).map Cell.uri)⟩
    | edited uri start stop new version =>
      exact ⟨stamp, h.of_eq (map_uri_after_edited _ uri start stop new version)⟩
    | replaced incoming =>
      exact absurd (List.mem_append_right _ List.mem_cons_self) (hsteps incoming)

/-! ### The order -/

namespace Stamped

variable {stamp : String → Nat} (h : Stamped steps stamp) {x y : String}
include h

/-- A cell that stands in front of another one was opened before it. -/
theorem lt_of_lt (hx : isInput x = .ok false) (hy : isInput y = .ok false) {i j : Nat}
    (hi : ((run [] steps).map Cell.uri)[i]? = some x)
    (hj : ((run [] steps).map Cell.uri)[j]? = some y) (hij : i < j) : stamp x < stamp y := by
  have hpairwise := h.pairwise
  rw [map_uri_others, List.pairwise_filter, List.pairwise_iff_getElem] at hpairwise
  obtain ⟨hilt, rfl⟩ := List.getElem?_eq_some_iff.1 hi
  obtain ⟨hjlt, rfl⟩ := List.getElem?_eq_some_iff.1 hj
  exact hpairwise i j hilt hjlt hij (isOther_eq_true hx) (isOther_eq_true hy)

/-- **Which of two cells stands in front** is decided by the steps that opened them. -/
theorem lt_iff_lt (hx : isInput x = .ok false) (hy : isInput y = .ok false) {i j : Nat}
    (hi : ((run [] steps).map Cell.uri)[i]? = some x)
    (hj : ((run [] steps).map Cell.uri)[j]? = some y) : i < j ↔ stamp x < stamp y := by
  refine ⟨h.lt_of_lt hx hy hi hj, fun hlt ↦ ?_⟩
  rcases Nat.lt_trichotomy i j with hij | rfl | hji
  · exact hij
  · obtain rfl := Option.some.inj (hi.symm.trans hj)
    exact absurd hlt (Nat.lt_irrefl _)
  · exact absurd (h.lt_of_lt hy hx hj hi hji) (Nat.lt_asymm hlt)

/-- Cells that are no input boxes are there once. -/
theorem count_eq_one (hx : isInput x = .ok false) (hmem : x ∈ (run [] steps).map Cell.uri) :
    ((run [] steps).map Cell.uri).count x = 1 := by
  have hother := isOther_eq_true hx
  have hnodup : ((run [] steps).others.map Cell.uri).Nodup :=
    h.pairwise.imp fun hlt heq ↦ absurd (heq ▸ hlt) (Nat.lt_irrefl _)
  rw [map_uri_others] at hnodup
  rw [← List.count_filter hother]
  exact List.count_eq_one_of_mem hnodup (List.mem_filter.2 ⟨hmem, hother⟩)

end Stamped

/-- The place of a URI among the cells is its place among the URIs. -/
theorem getElem?_uris_of_indexOf? {i : Nat} (h : cells.indexOf? uri = some i) :
    (cells.map Cell.uri)[i]? = some uri := by
  obtain ⟨before, c, after, hfirst, -, hc⟩ := exists_firstAt_of_indexOf? h
  rw [List.getElem?_map, hc, Option.map_some, hfirst.uri_eq]

/-- **Cells that are no input boxes stand in the order in which they were opened**, each of them
once. A cell that is opened again while it is open, or edited, moves no cell. -/
theorem indexOf?_run_lt_iff (hsteps : ∀ incoming, Step.replaced incoming ∉ steps) {x y : String}
    (hx : isInput x = .ok false) (hy : isInput y = .ok false)
    (hxopen : (run [] steps).has x = true) (hyopen : (run [] steps).has y = true) :
    (∃ i j m n, (run [] steps).indexOf? x = some i ∧ (run [] steps).indexOf? y = some j ∧
      IsGreatest {k | OpensAt steps x k} m ∧ IsGreatest {k | OpensAt steps y k} n ∧
      (i < j ↔ m < n)) ∧
    ((run [] steps).map Cell.uri).count x = 1 ∧ ((run [] steps).map Cell.uri).count y = 1 ∧
    ∀ k, ((∃ c, steps[k]? = some (.opened c) ∧ (run [] (steps.take k)).has c.uri = true) ∨
        ∃ uri start stop new version, steps[k]? = some (.edited uri start stop new version)) →
      (run [] (steps.take (k + 1))).map Cell.uri = (run [] (steps.take k)).map Cell.uri := by
  obtain ⟨stamp, h⟩ := exists_stamped hsteps
  refine ⟨?_, h.count_eq_one hx (has_iff.1 hxopen), h.count_eq_one hy (has_iff.1 hyopen), ?_⟩
  · obtain ⟨i, hi⟩ := Option.isSome_iff_exists.1 hxopen
    obtain ⟨j, hj⟩ := Option.isSome_iff_exists.1 hyopen
    exact ⟨i, j, stamp x, stamp y, hi, hj, h.isGreatest x (has_iff.1 hxopen),
      h.isGreatest y (has_iff.1 hyopen),
      h.lt_iff_lt hx hy (getElem?_uris_of_indexOf? hi) (getElem?_uris_of_indexOf? hj)⟩
  · rintro k (⟨c, hstep, hopen⟩ | ⟨uri, start, stop, new, version, hstep⟩)
    · rw [run, foldl_take_succ after [] hstep]
      exact map_uri_after_opened hopen
    · rw [run, foldl_take_succ after [] hstep]
      exact map_uri_after_edited _ uri start stop new version

/-- A cell that was closed and opened again counts from then on, and stands behind a cell that was
opened in between. One of the edits fails. -/
theorem indexOf?_run_lt_iff_reopened :
    let a : Cell := ⟨"vscode-notebook-cell:/1.interactive#a", "python", 1, "x".toList⟩
    let b : Cell := ⟨"vscode-notebook-cell:/1.interactive#b", "python", 1, "y".toList⟩
    let box : Cell := ⟨"vscode-interactive-input:/1.interactive#c", "python", 1, []⟩
    let box' : Cell := ⟨"vscode-interactive-input:/1.interactive#d", "python", 1, []⟩
    let steps : List Step := [.opened a, .opened box, .opened b, .opened box', .closed a.uri,
      .edited a.uri 0 1 [] 2, .opened a, .opened b, .edited b.uri 0 1 [] 3]
    (∀ incoming, Step.replaced incoming ∉ steps) ∧
      (run [] steps).indexOf? b.uri = some 0 ∧ (run [] steps).indexOf? a.uri = some 2 ∧
      (∃ m n, IsGreatest {k | OpensAt steps b.uri k} m ∧ IsGreatest {k | OpensAt steps a.uri k} n ∧
        m < n) ∧
      ((run [] steps).map Cell.uri).count b.uri = 1 := by
  intro a b box box' steps
  have hsteps : ∀ incoming, Step.replaced incoming ∉ steps := by simp [steps]
  have hb : (run [] steps).indexOf? b.uri = some 0 := by decide +kernel
  have ha : (run [] steps).indexOf? a.uri = some 2 := by decide +kernel
  obtain ⟨⟨i, j, m, n, hi, hj, hm, hn, hiff⟩, hcount, -, -⟩ :=
    indexOf?_run_lt_iff hsteps (x := b.uri) (y := a.uri) (by decide +kernel) (by decide +kernel)
      (by rw [has, hb]; rfl) (by rw [has, ha]; rfl)
  obtain rfl := Option.some.inj (hb.symm.trans hi)
  obtain rfl := Option.some.inj (ha.symm.trans hj)
  exact ⟨hsteps, hb, ha, ⟨m, n, hm, hn, hiff.1 (by decide)⟩, hcount⟩

end CellStitch.CellList
