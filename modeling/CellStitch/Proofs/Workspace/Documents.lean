import CellStitch.Proofs.Cell.Order
import CellStitch.Workspace.Basic
import Mathlib.Data.List.Nodup
/-!
# The documents of a workspace

Looking a document up after one was put in or taken away. A workspace has at most one document for a
URI (`Workspace.Distinct`), so that to find a document is to have it
(`Distinct.document?_eq_some_iff`), and only membership has to be followed.

The owners of cells have no part in this: what changes them alone leaves the documents, and those
that are open at the server, as they are.
-/

namespace CellStitch

namespace Workspace

/-- No two documents have the same URI. -/
def Distinct (w : Workspace) : Prop := (w.documents.map Document.uri).Nodup

/-! ### Looking up -/

section Documents

variable {w : Workspace} {d e : Document} {uri : String}

/-- What is found by a URI is a document with that URI. -/
theorem mem_of_document?_eq_some (h : w.document? uri = some d) : d ∈ w.documents ∧ d.uri = uri :=
  ⟨List.mem_of_find?_eq_some h, by simpa using List.find?_some h⟩

/-- Nothing is found by a URI that no document has. -/
theorem document?_eq_none_iff : w.document? uri = none ↔ ∀ d ∈ w.documents, d.uri ≠ uri := by
  simp [document?]

/-- Something is found by a URI exactly if some document has it. -/
theorem isSome_document?_iff :
    (w.document? uri).isSome ↔ uri ∈ w.documents.map Document.uri := by
  simp [document?]

/-- Only the documents decide what is found. -/
theorem document?_congr {w' : Workspace} (h : w'.documents = w.documents) (uri : String) :
    w'.document? uri = w.document? uri := by
  rw [document?, h, document?]

/-- **To find a document is to have it.** -/
theorem Distinct.document?_eq_some_iff (h : w.Distinct) :
    w.document? uri = some d ↔ d ∈ w.documents ∧ d.uri = uri := by
  refine ⟨mem_of_document?_eq_some, ?_⟩
  rintro ⟨hd, rfl⟩
  rcases hfound : w.document? d.uri with - | e
  · exact absurd rfl (document?_eq_none_iff.1 hfound d hd)
  · obtain ⟨he, huri⟩ := mem_of_document?_eq_some hfound
    rw [List.inj_on_of_nodup_map h he hd huri]

/-! ### Putting in and taking away -/

/-- A document takes the place of the one with its URI, if there is one. -/
theorem documents_put_of_isSome (h : (w.document? d.uri).isSome) :
    (w.put d).documents = w.documents.map fun e ↦ if e.uri = d.uri then d else e :=
  if_pos h

/-- A new document comes behind the others. -/
theorem documents_put_of_not_isSome (h : ¬ (w.document? d.uri).isSome) :
    (w.put d).documents = w.documents ++ [d] :=
  if_neg h

/-- Only the documents decide where a document is put. -/
theorem documents_put_congr {w' : Workspace} (h : w'.documents = w.documents) :
    (w'.put d).documents = (w.put d).documents := by
  have hfound := document?_congr h d.uri
  rcases Decidable.em (w.document? d.uri).isSome with hsome | hnone
  · rw [documents_put_of_isSome hsome, documents_put_of_isSome (by rwa [hfound]), h]
  · rw [documents_put_of_not_isSome hnone, documents_put_of_not_isSome (by rwa [hfound]), h]

/-- A document that takes the place of another has its URI. -/
theorem uri_replace : (if e.uri = d.uri then d else e).uri = e.uri := by
  split
  · exact Eq.symm ‹_›
  · rfl

/-- What is asked of URIs is not changed by a document that takes the place of another. -/
theorem filter_replace (documents : List Document) (d : Document) (p : String → Bool) :
    (documents.map fun e ↦ if e.uri = d.uri then d else e).filter (fun e ↦ p e.uri) =
      (documents.filter fun e ↦ p e.uri).map fun e ↦ if e.uri = d.uri then d else e := by
  rw [List.filter_map]
  congr 1
  refine List.filter_congr fun e _ ↦ ?_
  rw [Function.comp_apply, uri_replace]

/-- Where no document has the URI, none is replaced. -/
theorem map_replace_of_ne {documents : List Document} (h : ∀ e ∈ documents, e.uri ≠ d.uri) :
    (documents.map fun e ↦ if e.uri = d.uri then d else e) = documents :=
  (List.map_congr_left fun e he ↦ if_neg (h e he)).trans (List.map_id' _)

/-- Putting a document adds its URI at most, and at the end. -/
theorem map_uri_put : (w.put d).documents.map Document.uri =
    if (w.document? d.uri).isSome then w.documents.map Document.uri
    else w.documents.map Document.uri ++ [d.uri] := by
  split
  · rename_i hsome
    rw [documents_put_of_isSome hsome, List.map_map]
    exact List.map_congr_left fun e _ ↦ uri_replace
  · rename_i hnone
    rw [documents_put_of_not_isSome hnone, List.map_append, List.map_singleton]

/-- After a put there are the document and those with other URIs. -/
theorem mem_put_iff : e ∈ (w.put d).documents ↔ e = d ∨ (e ∈ w.documents ∧ e.uri ≠ d.uri) := by
  rcases Decidable.em (w.document? d.uri).isSome with hsome | hnone
  · rw [documents_put_of_isSome hsome]
    constructor
    · intro he
      obtain ⟨e', he', rfl⟩ := List.mem_map.1 he
      split
      · exact .inl rfl
      · exact .inr ⟨he', ‹_›⟩
    · rintro (rfl | ⟨he, hne⟩)
      · obtain ⟨e', he', huri⟩ := List.mem_map.1 (isSome_document?_iff.1 hsome)
        exact List.mem_map.2 ⟨e', he', if_pos huri⟩
      · exact List.mem_map.2 ⟨e, he, if_neg hne⟩
  · rw [documents_put_of_not_isSome hnone, List.mem_append, List.mem_singleton, or_comm]
    rw [isSome_document?_iff] at hnone
    refine or_congr_right ⟨fun he ↦ ⟨he, ?_⟩, And.left⟩
    intro huri
    exact hnone (List.mem_map.2 ⟨e, he, huri⟩)

/-- Putting a document in twice is putting it in once. -/
theorem documents_put_put {d' : Document} (huri : d'.uri = d.uri) :
    ((w.put d).put d').documents = (w.put d').documents := by
  have hsome : ((w.put d).document? d'.uri).isSome := by
    rw [isSome_document?_iff, huri]
    exact List.mem_map.2 ⟨d, mem_put_iff.2 (.inl rfl), rfl⟩
  rw [documents_put_of_isSome hsome]
  rcases Decidable.em (w.document? d.uri).isSome with h | h
  · rw [documents_put_of_isSome h, documents_put_of_isSome (d := d') (by rwa [huri]), List.map_map]
    refine List.map_congr_left fun e _ ↦ ?_
    show (if (if e.uri = d.uri then d else e).uri = d'.uri then d' else _) = _
    rw [huri]
    by_cases he : e.uri = d.uri
    · rw [if_pos he, if_pos rfl, if_pos he]
    · rw [if_neg he, if_neg he]
  · -- no document is replaced but the new one
    rw [documents_put_of_not_isSome h, documents_put_of_not_isSome (d := d') (by rwa [huri]),
      List.map_append, List.map_singleton, if_pos huri.symm]
    rw [isSome_document?_iff] at h
    congr 1
    exact map_replace_of_ne fun e he heq ↦ h (List.mem_map.2 ⟨e, he, heq.trans huri⟩)

/-- A document that is put and dropped again has left nothing. -/
theorem documents_drop_put : ((w.put d).drop d.uri).documents = (w.drop d.uri).documents := by
  show (w.put d).documents.filter (·.uri ≠ d.uri) = w.documents.filter (·.uri ≠ d.uri)
  rcases Decidable.em (w.document? d.uri).isSome with h | h
  · rw [documents_put_of_isSome h, filter_replace w.documents d fun uri ↦ uri ≠ d.uri]
    -- what is replaced is not looked at
    refine map_replace_of_ne fun e he ↦ ?_
    simpa using (List.mem_filter.1 he).2
  · rw [documents_put_of_not_isSome h, List.filter_append]
    simp

/-- Dropping takes away what has the URI, and nothing else. -/
theorem mem_drop_iff (uri : String) :
    e ∈ (w.drop uri).documents ↔ e ∈ w.documents ∧ e.uri ≠ uri := by
  simp [drop]

/-! ### Where a cell is opened -/

/-- The notebook that a cell is opened in: the one that is given, or else the one that its URI
tells. An empty one does not count as given. -/
def openedIn (c : Cell) : Option String → Except Failure String
  | none => notebookOf c.uri
  | some given => if given.isEmpty then notebookOf c.uri else .ok given

/-- Where a cell goes is asked in steps: whether its URI is one of a cell, then the notebook, then
the document. -/
theorem destination_eq (w : Workspace) (c : Cell) (given : Option String) :
    w.destination c given = isCell c.uri >>= fun cell ↦
      if cell then openedIn c given >>= fun notebook ↦
        w.documentOrNew notebook >>= fun d ↦ pure (some (notebook, d))
      else pure none := by
  rw [destination]
  rcases isCell c.uri with f | _ | _
  · rfl
  · rfl
  · rcases given with - | given
    · rfl
    · by_cases hgiven : given.isEmpty = true
      · simp only [ok_bind, openedIn, hgiven, if_true]
      · simp only [ok_bind, openedIn, hgiven, if_true]
        rfl

/-- A cell that goes somewhere goes to the document of the notebook it is opened in. -/
theorem destination_eq_some {c : Cell} {given : Option String} {notebook : String}
    (h : w.destination c given = .ok (some (notebook, d))) :
    openedIn c given = .ok notebook ∧ w.documentOrNew notebook = .ok d := by
  rw [destination_eq] at h
  obtain ⟨cell, -, h⟩ := bind_eq_ok_iff.1 h
  split at h
  · obtain ⟨notebook', hnotebook, h⟩ := bind_eq_ok_iff.1 h
    obtain ⟨d', hd, h⟩ := bind_eq_ok_iff.1 h
    cases h
    exact ⟨hnotebook, hd⟩
  · cases h

namespace Distinct

/-- A document that is put doubles no URI. -/
theorem put (h : w.Distinct) (d : Document) : (w.put d).Distinct := by
  rw [Distinct, map_uri_put]
  split
  · exact h
  · rename_i hnone
    rw [isSome_document?_iff] at hnone
    exact List.nodup_append_comm.1 (List.nodup_cons.2 ⟨hnone, h⟩)

/-- Dropping doubles no URI. -/
theorem drop (h : w.Distinct) (uri : String) : (w.drop uri).Distinct :=
  List.Nodup.sublist (List.filter_sublist.map _) h

/-- What is put is found by its URI, and everything else as before. -/
theorem document?_put (h : w.Distinct) (d : Document) (uri : String) :
    (w.put d).document? uri = if uri = d.uri then some d else w.document? uri := by
  refine Option.ext fun e ↦ ?_
  rw [(h.put d).document?_eq_some_iff, mem_put_iff]
  split
  · rename_i huri
    subst huri
    constructor
    · rintro ⟨rfl | ⟨-, hne⟩, he⟩
      · rfl
      · exact absurd he hne
    · intro he
      obtain rfl := Option.some.inj he
      exact ⟨.inl rfl, rfl⟩
  · rename_i hne
    rw [h.document?_eq_some_iff]
    constructor
    · rintro ⟨rfl | ⟨he, -⟩, huri⟩
      · exact absurd huri.symm hne
      · exact ⟨he, huri⟩
    · rintro ⟨he, rfl⟩
      exact ⟨.inr ⟨he, hne⟩, rfl⟩

/-- What is dropped is not found, and everything else as before. -/
theorem document?_drop (h : w.Distinct) (uri uri' : String) :
    (w.drop uri).document? uri' = if uri' = uri then none else w.document? uri' := by
  refine Option.ext fun e ↦ ?_
  rw [(h.drop uri).document?_eq_some_iff, mem_drop_iff]
  split
  · rename_i huri
    subst huri
    constructor
    · rintro ⟨⟨-, hne⟩, he⟩
      exact absurd he hne
    · intro he
      cases he
  · rename_i hne
    rw [h.document?_eq_some_iff]
    constructor
    · rintro ⟨⟨he, -⟩, huri⟩
      exact ⟨he, huri⟩
    · rintro ⟨he, rfl⟩
      exact ⟨⟨he, hne⟩, rfl⟩

end Distinct

end Documents

end Workspace

end CellStitch
