import CellStitch.Proofs.Workspace.Protocol
/-!
# What an event does to documents and owners

Each event ends in one of a few ways (`Workspace.Ends`): nothing happens, or a document takes the
event and is put in place, or taken away if it has no cells left, and some owners are noted or
forgotten. What is open at the server has no part in this.

Every handler is walked through once (`ends_handle`). What holds of all reachable workspaces is then
shown by cases on the ways to end.
-/

namespace CellStitch

namespace Workspace

variable {w w' : Workspace} {d e : Document} {cell notebook uri : String}

/-! ### Owners -/

/-- Looking up where a key was taken away. -/
theorem lookup_filter_ne (owners : List (String × String)) (cell uri : String) :
    (owners.filter (·.1 ≠ uri)).lookup cell =
      if cell = uri then none else owners.lookup cell := by
  induction owners with
  | nil => simp
  | cons p owners ih =>
    by_cases hp : p.1 = uri
    · rw [List.filter_cons_of_neg (by simpa using hp), ih, List.lookup_cons]
      split
      · rfl
      · rename_i hne
        rw [beq_eq_false_iff_ne.2 fun hcell ↦ hne (hcell.trans hp)]
    · rw [List.filter_cons_of_pos (by simpa using hp), List.lookup_cons, List.lookup_cons, ih]
      rcases hcell : cell == p.1 with _ | _
      · rfl
      · exact (if_neg fun heq ↦ hp ((beq_iff_eq.1 hcell).symm.trans heq)).symm

/-- To forget an owner changes that of one cell. -/
theorem lookup_dropOwner (w : Workspace) (cell uri : String) :
    (w.dropOwner uri).owners.lookup cell = if cell = uri then none else w.owners.lookup cell :=
  lookup_filter_ne w.owners cell uri

/-- To note an owner changes that of one cell. -/
theorem lookup_setOwner (w : Workspace) (notebook cell uri : String) :
    (w.setOwner notebook uri).owners.lookup cell =
      if cell = uri then some notebook else w.owners.lookup cell := by
  show ((uri, notebook) :: (w.dropOwner uri).owners).lookup cell = _
  rw [List.lookup_cons, lookup_dropOwner]
  by_cases hcell : cell = uri
  · simp [hcell]
  · simp [hcell, beq_eq_false_iff_ne.2 hcell]

/-- Cells that are dropped have no owner, and the others have the one before. -/
theorem lookup_foldl_dropOwner (uris : List String) (w : Workspace) (cell : String) :
    (uris.foldl dropOwner w).owners.lookup cell =
      if cell ∈ uris then none else w.owners.lookup cell := by
  induction uris generalizing w with
  | nil => rfl
  | cons uri uris ih =>
    rw [List.foldl_cons, ih, lookup_dropOwner]
    by_cases hcell : cell ∈ uris
    · simp [hcell]
    · simp [hcell]

/-- Cells that are noted for a notebook have it as their owner, and the others have the one before.
-/
theorem lookup_foldl_setOwner (notebook : String) (uris : List String) (w : Workspace)
    (cell : String) :
    (uris.foldl (fun w c ↦ w.setOwner notebook c) w).owners.lookup cell =
      if cell ∈ uris then some notebook else w.owners.lookup cell := by
  induction uris generalizing w with
  | nil => rfl
  | cons uri uris ih =>
    rw [List.foldl_cons, ih, lookup_setOwner]
    by_cases hcell : cell ∈ uris
    · simp [hcell]
    · simp [hcell]

/-- What is done to owners, cell by cell, does not depend on anything else. -/
theorem owners_foldl_congr {f : Workspace → String → Workspace}
    (hf : ∀ w w' cell, w.owners = w'.owners → (f w cell).owners = (f w' cell).owners)
    (cells : List String) (h : w.owners = w'.owners) :
    (cells.foldl f w).owners = (cells.foldl f w').owners := by
  induction cells generalizing w w' with
  | nil => exact h
  | cons cell cells ih => exact ih (hf w w' cell h)

/-- The owners after a refresh of a document: the cells that it had have none any more, and those
that it has then belong to the notebook, if the refresh did not fail. -/
def refreshedOwners (w : Workspace) (notebook : String) (d d' : Document) (ok : Bool) :
    List (String × String) :=
  let w := d.cellUris.foldl dropOwner w
  if ok then (d'.cellUris.foldl (fun w cell ↦ w.setOwner notebook cell) w).owners else w.owners

/-- Who owns a cell after a refresh that did not fail. -/
theorem lookup_refreshedOwners (w : Workspace) (notebook : String) (d d' : Document)
    (cell : String) : (w.refreshedOwners notebook d d' true).lookup cell =
      if cell ∈ d'.cellUris then some notebook
      else if cell ∈ d.cellUris then none else w.owners.lookup cell := by
  rw [refreshedOwners, if_pos rfl, lookup_foldl_setOwner, lookup_foldl_dropOwner]

/-! ### Documents -/

/-- A document is put in place, or taken away if it has no cells. -/
inductive Places (w : Workspace) (d : Document) (w' : Workspace) : Prop where
  | put (h : w'.documents = (w.put d).documents)
  | drop (hcells : d.cells = []) (h : w'.documents = (w.drop d.uri).documents)

namespace Places

/-- Where a document is placed, there is nothing new but the document itself. -/
theorem mem_or_eq (h : w.Places d w') (he : e ∈ w'.documents) :
    e = d ∨ (e ∈ w.documents ∧ e.uri ≠ d.uri) := by
  rcases h with h | ⟨-, h⟩
  · rw [h] at he
    exact mem_put_iff.1 he
  · rw [h] at he
    exact .inr ((mem_drop_iff _).1 he)

/-- Documents with another URI stay. -/
theorem mem_of_ne (h : w.Places d w') (he : e ∈ w.documents) (hne : e.uri ≠ d.uri) :
    e ∈ w'.documents := by
  rcases h with h | ⟨-, h⟩
  · rw [h]
    exact mem_put_iff.2 (.inr ⟨he, hne⟩)
  · rw [h]
    exact (mem_drop_iff _).2 ⟨he, hne⟩

/-- A document with cells is there when it is placed. -/
theorem mem_self (h : w.Places d w') (hcells : d.cells ≠ []) : d ∈ w'.documents := by
  rcases h with h | ⟨hnone, -⟩
  · rw [h]
    exact mem_put_iff.2 (.inl rfl)
  · exact absurd hnone hcells

/-- A document that has some cell is there when it is placed. -/
theorem mem_self_of_cell (h : w.Places d w') (hcell : cell ∈ d.cellUris) : d ∈ w'.documents := by
  refine h.mem_self fun hnone ↦ ?_
  rw [Document.cellUris, hnone] at hcell
  exact absurd hcell List.not_mem_nil

/-- Placing a document doubles no URI. -/
theorem distinct (h : w.Places d w') (hw : w.Distinct) : w'.Distinct := by
  rw [Distinct]
  rcases h with h | ⟨-, h⟩
  · rw [h]
    exact hw.put d
  · rw [h]
    exact hw.drop d.uri

end Places

/-! ### The ways to end -/

/-- The notebook and the document in which an event puts the cells that it brings. The document is
as the event leaves it. -/
def brought (w : Workspace) : WorkspaceEvent → Option (String × Document)
  | .opened c given =>
    match w.destination c given with
    | .ok (some (notebook, d)) => some (notebook, (d.handle (.opened c)).1)
    | _ => none
  | .changed _ _ _ => none
  | .closed _ => none
  | .refreshed notebook cells =>
    match w.documentOrNew notebook with
    | .ok d => some (notebook, (d.handle (.refreshed cells)).1)
    | .error _ => none

/-- A cell that is opened in a document is brought to it. -/
theorem brought_opened {c : Cell} {given : Option String}
    (hd : w.destination c given = .ok (some (notebook, d))) :
    w.brought (.opened c given) = some (notebook, (d.handle (.opened c)).1) := by
  rw [brought, hd]

/-- The cells of a refresh are brought to the document of the notebook. -/
theorem brought_refreshed {cells : List Cell} (hd : w.documentOrNew notebook = .ok d) :
    w.brought (.refreshed notebook cells) = some (notebook, (d.handle (.refreshed cells)).1) := by
  rw [brought, hd]

/-- How an event ends, but for what is open at the server. An event that finds its document fails
exactly if the document does. -/
inductive Ends (w : Workspace) :
    WorkspaceEvent → Workspace × Except Failure (Option Notification) → Prop where
  /-- Nothing happens, because there is no document. -/
  | same {e : WorkspaceEvent} (hidle : w.brought e = none)
      (outcome : Except Failure (Option Notification)) : Ends w e (w, outcome)
  /-- A cell is closed that has no document. -/
  | forgotten {uri : String} (hd : w.documentFor uri = .ok none) :
      Ends w (.closed uri) (w.dropOwner uri, .ok none)
  | opened {c : Cell} {given : Option String} {notebook : String} {d d' : Document}
      {x : Except Failure (Option Update)} {r : Workspace × Except Failure (Option Notification)}
      (hd : w.destination c given = .ok (some (notebook, d)))
      (hstep : d.handle (.opened c) = (d', x)) (hplaces : w.Places d' r.1)
      (hok : r.2.isOk = x.isOk)
      (howners : r.1.owners =
        if x.isOk ∧ c.uri ∈ d'.cellUris then (w.setOwner notebook c.uri).owners
        else w.owners) : Ends w (.opened c given) r
  | changed {uri : String} {version : Int} {edits : List Edit} {d d' : Document}
      {x : Except Failure (Option Update)} {r : Workspace × Except Failure (Option Notification)}
      (hd : w.documentFor uri = .ok (some d))
      (hstep : d.handle (.changed uri version edits) = (d', x)) (hplaces : w.Places d' r.1)
      (hok : r.2.isOk = x.isOk) (howners : r.1.owners = w.owners) :
      Ends w (.changed uri version edits) r
  | closed {uri : String} {d d' : Document} {x : Except Failure (Option Update)}
      {r : Workspace × Except Failure (Option Notification)}
      (hd : w.documentFor uri = .ok (some d)) (hstep : d.handle (.closed uri) = (d', x))
      (hplaces : w.Places d' r.1) (hok : r.2.isOk = x.isOk)
      (howners : r.1.owners = (w.dropOwner uri).owners) : Ends w (.closed uri) r
  | refreshed {notebook : String} {cells : List Cell} {d d' : Document}
      {x : Except Failure (Option Update)} {r : Workspace × Except Failure (Option Notification)}
      (hd : w.documentOrNew notebook = .ok d) (hstep : d.handle (.refreshed cells) = (d', x))
      (hplaces : w.Places d' r.1) (hok : r.2.isOk = x.isOk)
      (howners : r.1.owners = w.refreshedOwners notebook d d' x.isOk) :
      Ends w (.refreshed notebook cells) r

section Send

variable (w : Workspace) (d : Document) (update : Option Update)

@[simp] theorem documents_send : (w.send d update).1.documents = w.documents := by
  rcases update with - | u
  · rfl
  · rw [send]
    split <;> rfl

@[simp] theorem owners_send : (w.send d update).1.owners = w.owners := by
  rcases update with - | u
  · rfl
  · rw [send]
    split <;> rfl

@[simp] theorem owners_sendOrDispose : (w.sendOrDispose d update).1.owners = w.owners := by
  rw [sendOrDispose]
  split
  · rw [dispose]
    split <;> rfl
  · exact owners_send w d update

/-- A document that is disposed of is dropped. -/
theorem documents_dispose : (w.dispose d).1.documents = (w.drop d.uri).documents := by
  rw [dispose]
  split <;> rfl

end Send

/-- A document that was put in stays if it has cells, and is taken away again if it has none. -/
theorem places_sendOrDispose (h : w'.documents = (w.put d).documents) (update : Option Update) :
    w.Places d (w'.sendOrDispose d update).1 := by
  rw [sendOrDispose]
  split
  · rename_i hcells
    refine .drop (List.isEmpty_iff.1 hcells) ?_
    rw [documents_dispose, ← documents_drop_put (w := w) (d := d)]
    show w'.documents.filter _ = (w.put d).documents.filter _
    rw [h]
  · exact .put ((documents_send w' d update).trans h)

/-! ### Every event ends in one of the ways -/

/-- A refresh keeps the URI of its document. -/
theorem uri_handle_refreshed (d : Document) (cells : List Cell) :
    (d.handle (.refreshed cells)).1.uri = d.uri := by
  rw [Document.handle]
  rcases h : d.refresh cells with f | r
  · rfl
  · exact (Document.SoundStep.of_refresh h).sameSetup.uri_eq

section Handle

variable (w : Workspace)

/-- What opening a cell does to documents and owners, in whatever way it ends. -/
theorem ends_openCell (c : Cell) (given : Option String) :
    w.Ends (.opened c given) (w.openCell c given) := by
  rw [openCell]
  rcases hd : w.destination c given with f | _ | ⟨notebook, d⟩
  · exact .same (by rw [brought, hd]) _
  · exact .same (by rw [brought, hd]) _
  · dsimp only
    rcases hstep : d.handle (.opened c) with ⟨d', f | update⟩
    · refine .opened hd hstep (.put rfl) rfl ?_
      exact (if_neg fun h ↦ Bool.false_ne_true h.1).symm
    · refine .opened hd hstep ?_ rfl ?_
      · -- the document stays if it has the cell, and goes if it did not take it and has none at all
        show w.Places d' (send _ d' update).1
        split
        · exact .put (documents_send _ d' update)
        · split
          · rename_i hcells
            refine .drop (List.isEmpty_iff.1 hcells) ((documents_send _ d' update).trans ?_)
            exact documents_drop_put
          · exact .put (documents_send _ d' update)
      · show (send _ d' update).1.owners = _
        rw [owners_send]
        split
        · rename_i hhas
          exact (if_pos ⟨rfl, CellList.has_iff.1 hhas⟩).symm
        · rename_i hnot
          refine Eq.trans ?_ (if_neg fun h ↦ hnot (CellList.has_iff.2 h.2)).symm
          split <;> rfl

/-- What a change does to documents and owners: no owner changes. -/
theorem ends_changeCell (uri : String) (version : Int) (edits : List Edit) :
    w.Ends (.changed uri version edits) (w.changeCell uri version edits) := by
  rw [changeCell]
  rcases hd : w.documentFor uri with f | _ | d
  · exact .same rfl _
  · exact .same rfl _
  · dsimp only
    rcases hstep : d.handle (.changed uri version edits) with ⟨d', f | update⟩
    · exact .changed hd hstep (.put rfl) rfl rfl
    · exact .changed hd hstep (.put (documents_send _ d' update)) rfl (owners_send _ d' update)

/-- What closing a cell does to documents and owners. -/
theorem ends_closeCell (uri : String) : w.Ends (.closed uri) (w.closeCell uri) := by
  rw [closeCell]
  rcases hd : w.documentFor uri with f | _ | d
  · exact .same rfl _
  · exact .forgotten hd
  · dsimp only
    rcases hstep : d.handle (.closed uri) with ⟨d', f | update⟩
    · exact .closed hd hstep (.put rfl) rfl rfl
    · have hput : ((w.dropOwner uri).put d').documents = (w.put d').documents := rfl
      exact .closed hd hstep (places_sendOrDispose hput update) rfl
        (owners_sendOrDispose _ d' update)

/-- What a refresh does to documents and owners, also when it fails in the document. -/
theorem ends_refresh (notebook : String) (cells : List Cell) :
    w.Ends (.refreshed notebook cells) (w.refresh notebook cells) := by
  rw [refresh]
  rcases hd : w.documentOrNew notebook with f | d
  · exact .same (by rw [brought, hd]) _
  · have huri := uri_handle_refreshed d cells
    have hforgotten : (d.cellUris.foldl dropOwner (w.put d)).owners =
        (d.cellUris.foldl dropOwner w).owners :=
      owners_foldl_congr (fun _ _ uri h ↦ congrArg (List.filter (·.1 ≠ uri)) h) d.cellUris rfl
    dsimp only
    rcases hstep : d.handle (.refreshed cells) with ⟨d', f | update⟩ <;> rw [hstep] at huri
    · refine .refreshed hd hstep (.put ?_) rfl hforgotten
      exact (putIn_refresh w huri notebook d.cellUris []).documents_eq
    · refine .refreshed hd hstep ?_ rfl ?_
      · exact places_sendOrDispose
          (putIn_refresh w huri notebook d.cellUris d'.cellUris).documents_eq update
      · show (sendOrDispose _ d' update).1.owners = _
        rw [owners_sendOrDispose]
        exact owners_foldl_congr (fun _ _ uri h ↦
          congrArg (fun owners ↦ (uri, notebook) :: owners.filter (·.1 ≠ uri)) h)
          d'.cellUris hforgotten

end Handle

/-- **An event ends in one of the ways.** -/
theorem ends_handle (w : Workspace) (e : WorkspaceEvent) : w.Ends e (w.handle e) := by
  cases e with
  | opened c given => exact w.ends_openCell c given
  | changed uri version edits => exact w.ends_changeCell uri version edits
  | closed uri => exact w.ends_closeCell uri
  | refreshed notebook cells => exact w.ends_refresh notebook cells

end Workspace

end CellStitch
