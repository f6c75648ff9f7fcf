import CellStitch.Proofs.Document.Step
import CellStitch.Proofs.Workspace.Documents
/-!
# A server in step with a workspace

What holds of a workspace and of a server that was told of it: the server has the documents of the
workspace, with their texts and versions, and each of them has cells (`Workspace.InStep`).

An event ends in one of two ways: a document that has cells is put in, or one that has none is taken
away. `InStep.put` and `InStep.drop` follow the workspace there, `InStep.send` and
`InStep.dispose` also the server.
-/

namespace CellStitch

/-- What a server should have of a document. -/
def Document.copy (d : Document) : Receiver.Copy := ⟨d.version, d.text⟩

/-- A receiver that has what it is told stays as it is. -/
theorem Receiver.set_eq_self {r : Receiver} {uri : String} {c : Option Receiver.Copy}
    (h : r uri = c) : r.set uri c = r := by
  funext u
  rw [set]
  split
  · rename_i hu
    rw [hu, h]
  · rfl

namespace Workspace

/-- A server has what it should have of a workspace: the documents that are open there are those of
the workspace, each of which has cells. -/
structure InStep (w : Workspace) (r : Receiver) : Prop where
  distinct : w.Distinct
  settled : ∀ d ∈ w.documents, d.Settled
  cells_ne_nil : ∀ d ∈ w.documents, d.cells ≠ []
  mem_opened_iff : ∀ uri, uri ∈ w.opened ↔ (w.document? uri).isSome
  copy_eq : ∀ uri, r uri = (w.document? uri).map Document.copy

namespace InStep

variable {w w' : Workspace} {r : Receiver} {d d' : Document}

/-- At the start there is nothing to be in step about. -/
theorem new (settings : Settings) : InStep (Workspace.new settings) Receiver.empty where
  distinct := List.nodup_nil
  settled d hd := absurd hd List.not_mem_nil
  cells_ne_nil d hd := absurd hd List.not_mem_nil
  mem_opened_iff uri := by simp [Workspace.new, document?]
  copy_eq uri := rfl

/-- The owners of cells have no part in it. -/
theorem congr (h : w.InStep r) (hdocuments : w'.documents = w.documents)
    (hopened : w'.opened = w.opened) : w'.InStep r where
  distinct := by
    rw [Distinct, hdocuments]
    exact h.distinct
  settled := by
    rw [hdocuments]
    exact h.settled
  cells_ne_nil := by
    rw [hdocuments]
    exact h.cells_ne_nil
  mem_opened_iff uri := by
    rw [hopened, document?_congr hdocuments]
    exact h.mem_opened_iff uri
  copy_eq uri := by
    rw [document?_congr hdocuments]
    exact h.copy_eq uri

/-- **A document with cells is put in**, and the server has it. -/
theorem put (h : w.InStep r) (hd : d.Settled) (hcells : d.cells ≠ [])
    (hdocuments : w'.documents = (w.put d).documents)
    (hopened : ∀ uri, uri ∈ w'.opened ↔ uri = d.uri ∨ uri ∈ w.opened) :
    w'.InStep (r.set d.uri (some d.copy)) where
  distinct := by
    rw [Distinct, hdocuments]
    exact h.distinct.put d
  settled e he := by
    rw [hdocuments, mem_put_iff] at he
    rcases he with rfl | ⟨he, -⟩
    · exact hd
    · exact h.settled e he
  cells_ne_nil e he := by
    rw [hdocuments, mem_put_iff] at he
    rcases he with rfl | ⟨he, -⟩
    · exact hcells
    · exact h.cells_ne_nil e he
  mem_opened_iff uri := by
    rw [hopened, document?_congr hdocuments, h.distinct.document?_put]
    split
    · rename_i huri
      simp [huri]
    · rename_i hne
      rw [or_iff_right hne, h.mem_opened_iff]
  copy_eq uri := by
    rw [document?_congr hdocuments, h.distinct.document?_put, Receiver.set]
    split
    · rfl
    · exact h.copy_eq uri

/-- **A document is taken away**, and the server does not have it any more. -/
theorem drop (h : w.InStep r) {uri : String} (hdocuments : w'.documents = (w.drop uri).documents)
    (hopened : ∀ u, u ∈ w'.opened ↔ u ∈ w.opened ∧ u ≠ uri) : w'.InStep (r.set uri none) where
  distinct := by
    rw [Distinct, hdocuments]
    exact h.distinct.drop uri
  settled e he := by
    rw [hdocuments, mem_drop_iff] at he
    exact h.settled e he.1
  cells_ne_nil e he := by
    rw [hdocuments, mem_drop_iff] at he
    exact h.cells_ne_nil e he.1
  mem_opened_iff u := by
    rw [hopened, document?_congr hdocuments, h.distinct.document?_drop, h.mem_opened_iff]
    split
    · rename_i hu
      simp [hu]
    · rename_i hne
      rw [and_iff_left hne]
  copy_eq u := by
    rw [document?_congr hdocuments, h.distinct.document?_drop, Receiver.set]
    split
    · rfl
    · exact h.copy_eq u

end InStep

/-! ### The end of an event -/

/-- A document that may take an event: one of the workspace, or a new one. -/
inductive Awaits (w : Workspace) (d : Document) : Prop where
  | kept (h : d ∈ w.documents)
  | fresh (h : w.document? d.uri = none) (hd : d.Settled) (hcells : d.cells = [])

/-- A workspace with a document put in, whatever the owners of its cells are. -/
structure PutIn (w : Workspace) (d : Document) (w' : Workspace) : Prop where
  documents_eq : w'.documents = (w.put d).documents
  opened_eq : w'.opened = w.opened

/-- A document that is put is put in. -/
theorem putIn_put (w : Workspace) (d : Document) : w.PutIn d (w.put d) := ⟨rfl, rfl⟩

/-- Dropping a document that is put in leaves what dropping it before would have left. -/
theorem PutIn.documents_drop {w w' : Workspace} {d : Document} (h : w.PutIn d w') :
    (w'.drop d.uri).documents = (w.drop d.uri).documents := by
  rw [← documents_drop_put (w := w) (d := d)]
  show w'.documents.filter _ = (w.put d).documents.filter _
  rw [h.documents_eq]

/-- The document of a notebook is one of the workspace, or is new. -/
theorem awaits_of_documentOrNew {w : Workspace} {notebook : String} {d : Document}
    (h : w.documentOrNew notebook = .ok d) : w.Awaits d := by
  obtain ⟨uri, -, h⟩ := bind_eq_ok_iff.1 h
  rcases hfound : w.document? uri with - | e
  · rw [hfound] at h
    obtain ⟨hd, hcells, -, -, huri⟩ := Document.settled_of_new h
    rw [← huri] at hfound
    exact .fresh hfound hd hcells
  · rw [hfound] at h
    obtain rfl := Except.ok.inj h
    exact .kept (mem_of_document?_eq_some hfound).1

namespace InStep

variable {w w' : Workspace} {r : Receiver} {d d' : Document} {update : Option Update}

/-- A document that awaits an event is settled. -/
theorem settled_of_awaits (h : w.InStep r) (hd : w.Awaits d) : d.Settled := by
  cases hd with
  | kept hd => exact h.settled d hd
  | fresh _ hd _ => exact hd

/-- What a server has of a document of the workspace. -/
theorem copy_eq_some (h : w.InStep r) (hd : d ∈ w.documents) : r d.uri = some d.copy := by
  rw [h.copy_eq, h.distinct.document?_eq_some_iff.2 ⟨hd, rfl⟩, Option.map_some]

/-- The receiver has no copy of a document that is not there. -/
theorem copy_eq_none (h : w.InStep r) {uri : String} (hnone : w.document? uri = none) :
    r uri = none := by
  rw [h.copy_eq, hnone, Option.map_none]

/-- A document of the workspace is open at the receiver. -/
theorem mem_opened (h : w.InStep r) (hd : d ∈ w.documents) : d.uri ∈ w.opened := by
  rw [h.mem_opened_iff, h.distinct.document?_eq_some_iff.2 ⟨hd, rfl⟩]
  rfl

/-- A document that is not there is not open at the receiver. -/
theorem not_mem_opened (h : w.InStep r) {uri : String} (hnone : w.document? uri = none) :
    uri ∉ w.opened := by
  rw [h.mem_opened_iff, hnone]
  exact Bool.false_ne_true

/-- What a server that has a document makes of an update of it. -/
theorem update?_copy {u : Update} (hstep : d.SoundStep (some u) d') :
    d.copy.update? u = some d'.copy := by
  obtain ⟨-, hu, hversion, hedits⟩ := hstep.announces
  have hnext : u.version = d.copy.version + 1 := hu
  have htext : Edit.applyAll d.copy.text u.edits = some d'.text := hedits
  rw [Receiver.Copy.update?, if_pos hnext, htext, hu, ← hversion]
  rfl

/-- Sending what is told of a document that the server has. -/
theorem send_of_mem (h : w.InStep r) (hd : d ∈ w.documents) (hstep : d.SoundStep update d')
    (hcells : d'.cells ≠ []) (hput : w.PutIn d' w') :
    ∃ r', r.receive? (w'.send d' update).2 = some r' ∧ (w'.send d' update).1.InStep r' := by
  have huri : d'.uri = d.uri := hstep.sameSetup.uri_eq
  have hcopy := h.copy_eq_some hd
  have hin : w'.InStep (r.set d'.uri (some d'.copy)) := by
    refine h.put hstep.settled hcells hput.documents_eq fun uri ↦ ?_
    rw [hput.opened_eq, or_iff_right_of_imp]
    rintro rfl
    rw [huri]
    exact h.mem_opened hd
  cases update with
  -- nothing is told only if text and version stay, and then the copy stays as well
  | none =>
    obtain ⟨htext, hversion⟩ := hstep.announces
    have hsame : r.set d'.uri (some d'.copy) = r := by
      refine Receiver.set_eq_self ?_
      rw [huri, hcopy, Document.copy, Document.copy, htext, hversion]
    rw [hsame] at hin
    exact ⟨r, rfl, hin⟩
  | some u =>
    have hmem : w'.opened.contains d'.uri = true := by
      rw [hput.opened_eq, huri, List.contains_iff_mem]
      exact h.mem_opened hd
    have hreceive : r.receive (.didChange u) = some (r.set d'.uri (some d'.copy)) := by
      rw [Receiver.receive, hstep.announces.1, hcopy, huri]
      show (d.copy.update? u).map _ = _
      rw [update?_copy hstep]
      rfl
    rw [Workspace.send, if_pos hmem]
    exact ⟨_, hreceive, hin⟩

/-- Sending what is told of a new document. It had no text and got cells, so there is something to
tell. -/
theorem send_of_fresh (h : w.InStep r) (hnone : w.document? d.uri = none) (hd : d.Settled)
    (hempty : d.cells = []) (hstep : d.SoundStep update d') (hcells : d'.cells ≠ [])
    (hput : w.PutIn d' w') :
    ∃ r', r.receive? (w'.send d' update).2 = some r' ∧ (w'.send d' update).1.InStep r' := by
  have huri : d'.uri = d.uri := hstep.sameSetup.uri_eq
  cases update with
  | none =>
    have htext := hstep.announces.1
    rw [hd.text_eq_nil_iff.2 hempty] at htext
    exact absurd (hstep.settled.text_eq_nil_iff.1 htext) hcells
  | some u =>
    have hmem : ¬ w'.opened.contains d'.uri = true := by
      rw [hput.opened_eq, huri, List.contains_iff_mem]
      exact h.not_mem_opened hnone
    have hreceive : r.receive (.didOpen d'.uri d'.language d'.version d'.text) =
        some (r.set d'.uri (some d'.copy)) := by
      rw [Receiver.receive, huri, h.copy_eq_none hnone]
      rfl
    rw [Workspace.send, if_neg hmem]
    refine ⟨_, hreceive, h.put hstep.settled hcells hput.documents_eq fun uri ↦ ?_⟩
    show uri ∈ d'.uri :: w'.opened ↔ _
    rw [List.mem_cons, hput.opened_eq]

/-- **Sending** what is told of a document that has cells. -/
theorem send (h : w.InStep r) (hd : w.Awaits d) (hstep : d.SoundStep update d')
    (hcells : d'.cells ≠ []) (hput : w.PutIn d' w') :
    ∃ r', r.receive? (w'.send d' update).2 = some r' ∧ (w'.send d' update).1.InStep r' := by
  cases hd with
  | kept hd => exact h.send_of_mem hd hstep hcells hput
  | fresh hnone hd hempty => exact h.send_of_fresh hnone hd hempty hstep hcells hput

/-- Taking a document away again that was put in behind all others. -/
theorem drop_of_fresh (h : w.InStep r) (hnone : w.document? d.uri = none) (hput : w.PutIn d w') :
    (w'.drop d.uri).InStep r := by
  have hin : (w'.drop d.uri).InStep (r.set d.uri none) := by
    refine h.drop hput.documents_drop fun u ↦ ?_
    show u ∈ w'.opened ↔ _
    rw [hput.opened_eq, iff_self_and]
    rintro hu rfl
    exact h.not_mem_opened hnone hu
  rwa [Receiver.set_eq_self (h.copy_eq_none hnone)] at hin

/-- **Disposing** of a document that has no cells, whether or not the server has it. -/
theorem dispose (h : w.InStep r) (hput : w.PutIn d w') :
    ∃ r', r.receive? (w'.dispose d).2 = some r' ∧ (w'.dispose d).1.InStep r' := by
  rcases hfound : w.document? d.uri with - | e
  · have hmem : ¬ (w'.drop d.uri).opened.contains d.uri = true := by
      show ¬ w'.opened.contains d.uri = true
      rw [hput.opened_eq, List.contains_iff_mem]
      exact h.not_mem_opened hfound
    rw [Workspace.dispose, if_neg hmem]
    exact ⟨r, rfl, h.drop_of_fresh hfound hput⟩
  · obtain ⟨he, huri⟩ := mem_of_document?_eq_some hfound
    have hmem : (w'.drop d.uri).opened.contains d.uri = true := by
      show w'.opened.contains d.uri = true
      rw [hput.opened_eq, List.contains_iff_mem, ← huri]
      exact h.mem_opened he
    have hreceive : r.receive (.didClose d.uri) = some (r.set d.uri none) := by
      rw [Receiver.receive, ← huri, h.copy_eq_some he]
    rw [Workspace.dispose, if_pos hmem]
    refine ⟨_, hreceive, h.drop hput.documents_drop fun u ↦ ?_⟩
    show u ∈ w'.opened.filter (· ≠ d.uri) ↔ _
    rw [hput.opened_eq, List.mem_filter, decide_eq_true_iff]

/-- Whatever is sent about a document, or its end, the receiver takes it and is in step behind it.
-/
theorem sendOrDispose (h : w.InStep r) (hd : w.Awaits d) (hstep : d.SoundStep update d')
    (hput : w.PutIn d' w') :
    ∃ r', r.receive? (w'.sendOrDispose d' update).2 = some r' ∧
      (w'.sendOrDispose d' update).1.InStep r' := by
  unfold Workspace.sendOrDispose
  split
  · exact h.dispose hput
  · rename_i hcells
    rw [List.isEmpty_iff] at hcells
    exact h.send hd hstep hcells hput

end InStep

end Workspace

end CellStitch
