import CellStitch.Proofs.Document.Cells
import CellStitch.Proofs.Workspace.Documents
import Mathlib.Data.List.Lattice
/-!
# Parts of a workspace

A *scope* names documents and cells. What a workspace has of them is a workspace of its own
(`Workspace.restrict`).

A workspace may be *closed* in a scope (`Workspace.Within`): the documents of the scope hold only
cells of the scope, and the notebooks that those cells were opened in have their documents there.
Then what is done to a document of the scope can be done in the restricted workspace as well, and is
not seen in any other scope. `ChangedIn` says so of two workspaces, and goes through each of the
elementary changes: putting a document in, taking it away, noting and forgetting an owner, opening
and closing at the server.
-/

namespace CellStitch

/-- Some documents and some cells, by their URIs. -/
structure Scope where
  documents : List String
  cells : List String

namespace Scope

/-- Two scopes have nothing in common. -/
def Disjoint (s t : Scope) : Prop :=
  s.documents.Disjoint t.documents ∧ s.cells.Disjoint t.cells

/-- Two scopes are apart from both sides. -/
theorem Disjoint.symm {s t : Scope} (h : s.Disjoint t) : t.Disjoint s :=
  ⟨h.1.symm, h.2.symm⟩

/-- The document of a notebook, if it has one, is in the scope. -/
def HasNotebook (s : Scope) (notebook : String) : Prop :=
  ∀ uri, documentOf notebook = .ok uri → uri ∈ s.documents

/-- A cell of the scope, whose URI tells a notebook of the scope. -/
structure HasCell (s : Scope) (cell : String) : Prop where
  mem : cell ∈ s.cells
  notebook : ∀ notebook, notebookOf cell = .ok notebook → s.HasNotebook notebook

/-- A document of the scope, with cells of the scope. -/
structure Has (s : Scope) (d : Document) : Prop where
  uri_mem : d.uri ∈ s.documents
  settled : d.Settled
  cells_mem : ∀ c ∈ d.cellUris, c ∈ s.cells

/-- An event that names cells of the scope leaves a document in it, also if it fails. -/
theorem Has.handle {s : Scope} {d : Document} (h : s.Has d) (e : Event)
    (he : ∀ c ∈ e.cellUris, c ∈ s.cells) : s.Has (d.handle e).1 := by
  have hsound := h.settled.handle e
  refine ⟨?_, hsound.settled, ?_⟩
  · rw [hsound.sameSetup.uri_eq]
    exact h.uri_mem
  · intro c hc
    exact (h.settled.mem_cellUris_handle hc).elim (h.cells_mem c) (he c)

end Scope

namespace Workspace

/-- What a workspace has of a scope. -/
def restrict (w : Workspace) (s : Scope) : Workspace :=
  { w with
    documents := w.documents.filter (·.uri ∈ s.documents)
    opened := w.opened.filter (· ∈ s.documents)
    owners := w.owners.filter (·.1 ∈ s.cells) }

/-- A workspace is closed in a scope. -/
structure Within (w : Workspace) (s : Scope) : Prop where
  has : ∀ d ∈ w.documents, d.uri ∈ s.documents → s.Has d
  owner : ∀ p ∈ w.owners, p.1 ∈ s.cells → s.HasNotebook p.2

/-- A workspace is what it keeps. -/
theorem eq_of_fields {v w : Workspace} (hsettings : v.settings = w.settings)
    (hdocuments : v.documents = w.documents) (hopened : v.opened = w.opened)
    (howners : v.owners = w.owners) : v = w := by
  cases v
  cases w
  cases hsettings
  cases hdocuments
  cases hopened
  cases howners
  rfl

/-- At the start there is nothing outside of any scope. -/
theorem restrict_new (settings : Settings) (s : Scope) :
    (Workspace.new settings).restrict s = Workspace.new settings := rfl

/-- At the start everything lies in any scope, for there is nothing. -/
theorem within_new (settings : Settings) (s : Scope) : (Workspace.new settings).Within s :=
  ⟨fun _ hd ↦ absurd hd List.not_mem_nil, fun _ hp ↦ absurd hp List.not_mem_nil⟩

/-- To be closed in a scope is said of what a workspace has of it. -/
theorem Within.congr {w w' : Workspace} {s : Scope} (h : w.Within s)
    (heq : w'.restrict s = w.restrict s) : w'.Within s := by
  have hdocuments := congrArg documents heq
  have howners := congrArg owners heq
  refine ⟨?_, ?_⟩
  · intro d hd huri
    have hmem : d ∈ (w'.restrict s).documents := List.mem_filter.2 ⟨hd, decide_eq_true huri⟩
    rw [hdocuments] at hmem
    exact h.has d (List.mem_filter.1 hmem).1 huri
  · intro p hp hcell
    have hmem : p ∈ (w'.restrict s).owners := List.mem_filter.2 ⟨hp, decide_eq_true hcell⟩
    rw [howners] at hmem
    exact h.owner p (List.mem_filter.1 hmem).1 hcell

/-- Taking away what is not kept anyway. -/
theorem filter_ne_filter {α : Type} (key : α → String) {kept : List String} {uri : String}
    (h : uri ∉ kept) (as : List α) :
    (as.filter (key · ≠ uri)).filter (key · ∈ kept) = as.filter (key · ∈ kept) := by
  rw [List.filter_filter]
  refine List.filter_congr fun a _ ↦ ?_
  have hne : key a ∈ kept → key a ≠ uri := fun hmem heq ↦ h (heq ▸ hmem)
  simpa using hne

/-! ### Looking up in a restricted workspace -/

section Restrict

variable (w : Workspace) {s : Scope} {d : Document} {uri cell : String}

/-- A document of the scope is found as before. -/
theorem document?_restrict (h : uri ∈ s.documents) :
    (w.restrict s).document? uri = w.document? uri := by
  show (w.documents.filter _).find? _ = w.documents.find? _
  rw [List.find?_filter]
  congr 1
  funext d
  by_cases huri : d.uri = uri <;> simp [huri, h]

/-- The owner of a cell of the scope is found as before. -/
theorem lookup_restrict (h : cell ∈ s.cells) :
    (w.restrict s).owners.lookup cell = w.owners.lookup cell := by
  show (w.owners.filter _).lookup cell = _
  induction w.owners with
  | nil => rfl
  | cons p owners ih =>
    by_cases hp : p.1 ∈ s.cells
    · rw [List.filter_cons_of_pos (by simpa using hp), List.lookup_cons, List.lookup_cons, ih]
    · have hne : (cell == p.1) = false := beq_eq_false_iff_ne.2 fun heq ↦ hp (heq ▸ h)
      rw [List.filter_cons_of_neg (by simpa using hp), ih, List.lookup_cons, hne]

/-- Whether a document of the scope is told to the receiver is seen as before. -/
theorem contains_restrict (h : uri ∈ s.documents) :
    (w.restrict s).opened.contains uri = w.opened.contains uri := by
  rw [Bool.eq_iff_iff, List.contains_iff_mem, List.contains_iff_mem]
  show uri ∈ w.opened.filter _ ↔ _
  simp [h]

/-! ### Elementary changes in a restricted workspace -/

/-- Putting back a document of the scope is seen in the scope. -/
theorem restrict_put (h : d.uri ∈ s.documents) : (w.put d).restrict s = (w.restrict s).put d := by
  have hfound := w.document?_restrict h
  refine eq_of_fields rfl ?_ rfl rfl
  show (w.put d).documents.filter _ = _
  rcases Decidable.em (w.document? d.uri).isSome with hsome | hnone
  · rw [documents_put_of_isSome hsome, documents_put_of_isSome (by rwa [hfound])]
    exact filter_replace w.documents d fun uri ↦ uri ∈ s.documents
  · rw [documents_put_of_not_isSome hnone, documents_put_of_not_isSome (by rwa [hfound]),
      List.filter_append, List.filter_cons_of_pos (by simpa using h)]
    rfl

/-- Putting back any other document is not seen. -/
theorem restrict_put_of_not_mem (h : d.uri ∉ s.documents) :
    (w.put d).restrict s = w.restrict s := by
  refine eq_of_fields rfl ?_ rfl rfl
  show (w.put d).documents.filter _ = w.documents.filter _
  rcases Decidable.em (w.document? d.uri).isSome with hsome | hnone
  · rw [documents_put_of_isSome hsome, filter_replace w.documents d fun uri ↦ uri ∈ s.documents]
    refine map_replace_of_ne fun e he heq ↦ h ?_
    rw [← heq]
    simpa using (List.mem_filter.1 he).2
  · rw [documents_put_of_not_isSome hnone, List.filter_append,
      List.filter_cons_of_neg (by simpa using h), List.filter_nil, List.append_nil]

/-- Dropping documents is seen in the scope as far as they are there. -/
theorem restrict_drop : (w.drop uri).restrict s = (w.restrict s).drop uri :=
  eq_of_fields rfl (List.filter_comm _ _ _) rfl rfl

/-- Dropping a document that is not in the scope is not seen. -/
theorem restrict_drop_of_not_mem (h : uri ∉ s.documents) : (w.drop uri).restrict s = w.restrict s :=
  eq_of_fields rfl (filter_ne_filter Document.uri h w.documents) rfl rfl

/-- Dropping the owner of a cell is seen in the scope as far as the cell is there. -/
theorem restrict_dropOwner : (w.dropOwner cell).restrict s = (w.restrict s).dropOwner cell :=
  eq_of_fields rfl rfl rfl (List.filter_comm _ _ _)

/-- Dropping the owner of any other cell is not seen. -/
theorem restrict_dropOwner_of_not_mem (h : cell ∉ s.cells) :
    (w.dropOwner cell).restrict s = w.restrict s :=
  eq_of_fields rfl rfl rfl (filter_ne_filter Prod.fst h w.owners)

/-- What is noted of the owners, as a scope has it. -/
theorem owners_restrict_setOwner (notebook : String) (s : Scope) (cell : String) :
    ((w.setOwner notebook cell).restrict s).owners =
      if cell ∈ s.cells then (cell, notebook) :: ((w.dropOwner cell).restrict s).owners
      else ((w.dropOwner cell).restrict s).owners := by
  rw [restrict, setOwner, List.filter_cons]
  by_cases h : cell ∈ s.cells <;> simp [h, restrict]

/-- Noting the owner of a cell of the scope is seen in the scope. -/
theorem restrict_setOwner (notebook : String) (h : cell ∈ s.cells) :
    (w.setOwner notebook cell).restrict s = (w.restrict s).setOwner notebook cell := by
  refine eq_of_fields rfl rfl rfl ?_
  rw [owners_restrict_setOwner, if_pos h, restrict_dropOwner]
  rfl

/-- Noting the owner of any other cell is not seen. -/
theorem restrict_setOwner_of_not_mem (notebook : String) (h : cell ∉ s.cells) :
    (w.setOwner notebook cell).restrict s = w.restrict s := by
  rw [← w.restrict_dropOwner_of_not_mem h]
  refine eq_of_fields rfl rfl rfl ?_
  rw [owners_restrict_setOwner, if_neg h]

/-- That a document of the scope is told to the receiver is noted in the scope. -/
theorem restrict_open (h : uri ∈ s.documents) :
    ({ w with opened := uri :: w.opened } : Workspace).restrict s =
      { w.restrict s with opened := uri :: (w.restrict s).opened } := by
  simp [restrict, h]

/-- That any other document is told is not seen. -/
theorem restrict_open_of_not_mem (h : uri ∉ s.documents) :
    ({ w with opened := uri :: w.opened } : Workspace).restrict s = w.restrict s := by
  simp [restrict, h]

/-- That a document is no longer told is noted in the scope as far as it is there. -/
theorem restrict_close : ({ w with opened := w.opened.filter (· ≠ uri) } : Workspace).restrict s =
    { w.restrict s with opened := (w.restrict s).opened.filter (· ≠ uri) } :=
  eq_of_fields rfl rfl (List.filter_comm _ _ _) rfl

/-- That any other document is no longer told is not seen. -/
theorem restrict_close_of_not_mem (h : uri ∉ s.documents) :
    ({ w with opened := w.opened.filter (· ≠ uri) } : Workspace).restrict s = w.restrict s :=
  eq_of_fields rfl rfl (filter_ne_filter id h w.opened) rfl

end Restrict

/-! ### Closed workspaces -/

namespace Within

variable {w : Workspace} {s : Scope} {d : Document}

/-- A document of the scope leaves nothing outside when it is put back. -/
theorem put (hw : w.Within s) (hd : s.Has d) : (w.put d).Within s := by
  refine ⟨?_, hw.owner⟩
  intro e he huri
  rcases mem_put_iff.1 he with rfl | ⟨he, -⟩
  · exact hd
  · exact hw.has e he huri

/-- Nothing gets outside when a document is dropped. -/
theorem drop (hw : w.Within s) (uri : String) : (w.drop uri).Within s :=
  ⟨fun e he ↦ hw.has e ((mem_drop_iff uri).1 he).1, hw.owner⟩

/-- Nothing gets outside when an owner is dropped. -/
theorem dropOwner (hw : w.Within s) (cell : String) : (w.dropOwner cell).Within s :=
  ⟨hw.has, fun p hp ↦ hw.owner p (List.mem_filter.1 hp).1⟩

/-- A notebook of the scope leaves nothing outside when it is noted as an owner. -/
theorem setOwner (hw : w.Within s) {notebook : String} (hnotebook : s.HasNotebook notebook)
    (cell : String) :
    (w.setOwner notebook cell).Within s := by
  refine ⟨hw.has, ?_⟩
  intro p hp hcell
  rcases List.mem_cons.1 hp with rfl | hp
  · exact hnotebook
  · exact (hw.dropOwner cell).owner p hp hcell

end Within

/-! ### The same changes in a restricted workspace -/

/-- `w'` came from `w` by changes in a scope, and `v` by the same changes from what `w` has of
it. -/
structure ChangedIn (s : Scope) (w w' v : Workspace) : Prop where
  restrict_eq : w'.restrict s = v
  within : w'.Within s
  frame : ∀ t : Scope, s.Disjoint t → w'.restrict t = w.restrict t

/-- Two outcomes agree, one in a workspace and one in what it has of a scope. -/
structure AgreesIn {α : Type} (s : Scope) (w : Workspace) (r q : Workspace × α) : Prop where
  changedIn : ChangedIn s w r.1 q.1
  result_eq : q.2 = r.2

/-- Results without a notification agree as far as their workspaces do. -/
theorem AgreesIn.done {s : Scope} {w : Workspace} {r q : Workspace × Option Notification}
    (h : AgreesIn s w r q) : AgreesIn s w (Workspace.done r) (Workspace.done q) :=
  ⟨h.changedIn, congrArg Except.ok h.result_eq⟩

namespace ChangedIn

variable {s : Scope} {w w' v : Workspace} {d : Document} {uri cell notebook : String}

/-- A workspace that is left alone has changed in any scope that it lies within. -/
theorem refl (hw : w.Within s) : ChangedIn s w w (w.restrict s) := ⟨rfl, hw, fun _ _ ↦ rfl⟩

/-- Both sides may put back a document of the scope. -/
theorem put (h : ChangedIn s w w' v) (hd : s.Has d) : ChangedIn s w (w'.put d) (v.put d) where
  restrict_eq := by rw [restrict_put w' hd.uri_mem, h.restrict_eq]
  within := h.within.put hd
  frame t ht := by rw [restrict_put_of_not_mem w' (ht.1 hd.uri_mem), h.frame t ht]

/-- Both sides may drop a document of the scope. -/
theorem drop (h : ChangedIn s w w' v) (huri : uri ∈ s.documents) :
    ChangedIn s w (w'.drop uri) (v.drop uri) where
  restrict_eq := by rw [restrict_drop, h.restrict_eq]
  within := h.within.drop uri
  frame t ht := by rw [restrict_drop_of_not_mem w' (ht.1 huri), h.frame t ht]

/-- Both sides may drop the owner of a cell of the scope. -/
theorem dropOwner (h : ChangedIn s w w' v) (hcell : cell ∈ s.cells) :
    ChangedIn s w (w'.dropOwner cell) (v.dropOwner cell) where
  restrict_eq := by rw [restrict_dropOwner, h.restrict_eq]
  within := h.within.dropOwner cell
  frame t ht := by rw [restrict_dropOwner_of_not_mem w' (ht.2 hcell), h.frame t ht]

/-- Both sides may note a notebook of the scope as the owner of a cell of the scope. -/
theorem setOwner (h : ChangedIn s w w' v) (hnotebook : s.HasNotebook notebook)
    (hcell : cell ∈ s.cells) :
    ChangedIn s w (w'.setOwner notebook cell) (v.setOwner notebook cell) where
  restrict_eq := by rw [restrict_setOwner w' notebook hcell, h.restrict_eq]
  within := h.within.setOwner hnotebook cell
  frame t ht := by rw [restrict_setOwner_of_not_mem w' notebook (ht.2 hcell), h.frame t ht]

/-- A change that is made for each of some cells of the scope. -/
theorem foldl {change : Workspace → String → Workspace} {cells : List String}
    (hchange : ∀ w' v, ∀ cell ∈ cells, ChangedIn s w w' v →
      ChangedIn s w (change w' cell) (change v cell)) (h : ChangedIn s w w' v) :
    ChangedIn s w (cells.foldl change w') (cells.foldl change v) := by
  induction cells generalizing w' v with
  | nil => exact h
  | cons cell cells ih =>
    exact ih (fun w' v c hc ↦ hchange w' v c (List.mem_cons_of_mem cell hc))
      (hchange w' v cell List.mem_cons_self h)

/-- **Sending** what is told of a document of the scope. -/
theorem send (h : ChangedIn s w w' v) (huri : d.uri ∈ s.documents) (update : Option Update) :
    AgreesIn s w (w'.send d update) (v.send d update) := by
  have hopened : v.opened.contains d.uri = w'.opened.contains d.uri := by
    rw [← h.restrict_eq, contains_restrict w' huri]
  rcases update with - | u
  · exact ⟨h, rfl⟩
  · rw [Workspace.send, Workspace.send, hopened]
    split
    · exact ⟨h, rfl⟩
    · refine ⟨⟨?_, ⟨h.within.has, h.within.owner⟩, ?_⟩, rfl⟩
      · rw [restrict_open w' huri, h.restrict_eq]
      · intro t ht
        rw [restrict_open_of_not_mem w' (ht.1 huri), h.frame t ht]

/-- **Disposing** of a document of the scope. -/
theorem dispose (h : ChangedIn s w w' v) (huri : d.uri ∈ s.documents) :
    AgreesIn s w (w'.dispose d) (v.dispose d) := by
  have h := h.drop huri
  have hopened : (v.drop d.uri).opened.contains d.uri = (w'.drop d.uri).opened.contains d.uri := by
    rw [← h.restrict_eq, contains_restrict _ huri]
  rw [Workspace.dispose, Workspace.dispose, hopened]
  split
  · refine ⟨⟨?_, ⟨h.within.has, h.within.owner⟩, ?_⟩, rfl⟩
    · rw [restrict_close, h.restrict_eq]
    · intro t ht
      rw [restrict_close_of_not_mem _ (ht.1 huri), h.frame t ht]
  · exact ⟨h, rfl⟩

/-- Both sides send the same notification about a document of the scope, or dispose of it together.
-/
theorem sendOrDispose (h : ChangedIn s w w' v) (huri : d.uri ∈ s.documents)
    (update : Option Update) :
    AgreesIn s w (w'.sendOrDispose d update) (v.sendOrDispose d update) := by
  unfold Workspace.sendOrDispose
  split
  · exact h.dispose huri
  · exact h.send huri update

end ChangedIn

end Workspace

end CellStitch
