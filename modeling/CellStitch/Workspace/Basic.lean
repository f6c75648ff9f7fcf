import CellStitch.Document.Update
/-!
# Workspaces

A workspace keeps one document for each notebook with open cells, in the order in which the
documents arose. It routes the events of cells to their documents and tells the server about them:
a document is opened at the server with its first text, changed with each update, and closed with
its last cell.

Three things are kept beside the settings: the documents, the URIs of the documents that are open at
the server, and for each open cell the notebook that it was opened in. The notebook of a cell
overrides the one that its URI tells (`Workspace.notebookFor`).

Each handler returns the workspace also when it fails.
-/

namespace CellStitch

/-- The documents of all notebooks. -/
structure Workspace where
  settings : Settings
  /-- The documents in the order in which they arose. -/
  documents : List Document
  /-- The documents that are open at the server. -/
  opened : List String
  /-- The notebooks that cells were opened in. -/
  owners : List (String × String)

/-- What happened to the cells of a workspace. -/
inductive WorkspaceEvent where
  /-- A cell was opened, perhaps with word of the notebook that it belongs to. -/
  | opened (cell : Cell) (notebook : Option String)
  | changed (uri : String) (version : Int) (edits : List Edit)
  | closed (uri : String)
  /-- The cells of a notebook are these, in this order. -/
  | refreshed (notebook : String) (cells : List Cell)
  deriving Repr

namespace Workspace

/-- A workspace without documents. -/
def new (settings : Settings) : Workspace := ⟨settings, [], [], []⟩

/-! ### Documents and owners -/

/-- The document with a URI. -/
def document? (w : Workspace) (uri : String) : Option Document :=
  w.documents.find? (·.uri == uri)

/-- Puts a document in the place of the one with its URI, or behind all others. -/
def put (w : Workspace) (d : Document) : Workspace :=
  { w with
    documents :=
      if (w.document? d.uri).isSome then
        w.documents.map fun e ↦ if e.uri = d.uri then d else e
      else w.documents ++ [d] }

/-- Takes the document with a URI away. -/
def drop (w : Workspace) (uri : String) : Workspace :=
  { w with documents := w.documents.filter (·.uri ≠ uri) }

/-- Forgets the notebook of a cell. -/
def dropOwner (w : Workspace) (cell : String) : Workspace :=
  { w with owners := w.owners.filter (·.1 ≠ cell) }

/-- Notes the notebook of a cell. -/
def setOwner (w : Workspace) (notebook cell : String) : Workspace :=
  { w with owners := (cell, notebook) :: (w.dropOwner cell).owners }

/-- The notebook of a cell: the one it was opened in, or else the one that its URI tells. An empty
URI does not count as a notebook. -/
def notebookFor (w : Workspace) (cell : String) : Except Failure String :=
  match w.owners.lookup cell with
  | none => notebookOf cell
  | some notebook => if notebook.isEmpty then notebookOf cell else .ok notebook

/-- The URI of the document of a cell, whether or not there is one. -/
def documentUriFor (w : Workspace) (cell : String) : Except Failure String := do
  documentOf (← w.notebookFor cell)

/-- The document of a cell. -/
def documentFor (w : Workspace) (cell : String) : Except Failure (Option Document) := do
  pure (w.document? (← w.documentUriFor cell))

/-- The document of a notebook, which is a new one if there is none yet. -/
def documentOrNew (w : Workspace) (notebook : String) : Except Failure Document := do
  let uri ← documentOf notebook
  match w.document? uri with
  | some d => pure d
  | none => Document.new uri w.settings

/-! ### Telling the server -/

/-- Sends an update of a document, or the whole document if the server has not opened it yet. -/
def send (w : Workspace) (d : Document) : Option Update → Workspace × Option Notification
  | none => (w, none)
  | some update =>
    if w.opened.contains d.uri then (w, some (.didChange update))
    else
      ({ w with opened := d.uri :: w.opened },
        some (.didOpen d.uri d.language d.version d.text))

/-- Takes a document away, and closes it at the server if it was opened there. -/
def dispose (w : Workspace) (d : Document) : Workspace × Option Notification :=
  let w := w.drop d.uri
  if w.opened.contains d.uri then
    ({ w with opened := w.opened.filter (· ≠ d.uri) }, some (.didClose d.uri))
  else (w, none)

/-- Sends an update of a document, or disposes of a document that has no cells left. -/
def sendOrDispose (w : Workspace) (d : Document) (update : Option Update) :
    Workspace × Option Notification :=
  if d.cells.isEmpty then w.dispose d else w.send d update

/-- An outcome without failure. -/
def done (outcome : Workspace × Option Notification) :
    Workspace × Except Failure (Option Notification) :=
  (outcome.1, .ok outcome.2)

/-! ### Events -/

/-- The notebook and the document that a cell is opened in. There is none for what is not a cell. -/
def destination (w : Workspace) (c : Cell) (notebook : Option String) :
    Except Failure (Option (String × Document)) := do
  if ← isCell c.uri then
    let notebook ←
      match notebook with
      | none => notebookOf c.uri
      | some given => if given.isEmpty then notebookOf c.uri else pure given
    let d ← w.documentOrNew notebook
    pure (some (notebook, d))
  else pure none

/-- A cell was opened. A document that took no cell does not stay. -/
def openCell (w : Workspace) (c : Cell) (notebook : Option String) :
    Workspace × Except Failure (Option Notification) :=
  match w.destination c notebook with
  | .error f => (w, .error f)
  | .ok none => (w, .ok none)
  | .ok (some (notebook, d)) =>
    match d.handle (.opened c) with
    | (d, .error f) => (w.put d, .error f)
    | (d, .ok update) =>
      let w := w.put d
      let w :=
        if d.cells.has c.uri then w.setOwner notebook c.uri
        else if d.cells.isEmpty then w.drop d.uri
        else w
      done (w.send d update)

/-- The text of a cell was edited. -/
def changeCell (w : Workspace) (uri : String) (version : Int) (edits : List Edit) :
    Workspace × Except Failure (Option Notification) :=
  match w.documentFor uri with
  | .error f => (w, .error f)
  | .ok none => (w, .ok none)
  | .ok (some d) =>
    match d.handle (.changed uri version edits) with
    | (d, .error f) => (w.put d, .error f)
    | (d, .ok update) => done ((w.put d).send d update)

/-- A cell was closed. -/
def closeCell (w : Workspace) (uri : String) : Workspace × Except Failure (Option Notification) :=
  match w.documentFor uri with
  | .error f => (w, .error f)
  | .ok none => (w.dropOwner uri, .ok none)
  | .ok (some d) =>
    let w := w.dropOwner uri
    match d.handle (.closed uri) with
    | (d, .error f) => (w.put d, .error f)
    | (d, .ok update) => done ((w.put d).sendOrDispose d update)

/-- The cells of a notebook are these, in this order. The cells that its document held so far lose
their notebook, and those that it holds then get it. -/
def refresh (w : Workspace) (notebook : String) (cells : List Cell) :
    Workspace × Except Failure (Option Notification) :=
  match w.documentOrNew notebook with
  | .error f => (w, .error f)
  | .ok d =>
    let w := d.cellUris.foldl dropOwner (w.put d)
    match d.handle (.refreshed cells) with
    | (d, .error f) => (w.put d, .error f)
    | (d, .ok update) =>
      let w := d.cellUris.foldl (fun w cell ↦ w.setOwner notebook cell) (w.put d)
      done (w.sendOrDispose d update)

/-- The workspace after an event, and what the server is to be told. -/
def handle (w : Workspace) : WorkspaceEvent → Workspace × Except Failure (Option Notification)
  | .opened c notebook => w.openCell c notebook
  | .changed uri version edits => w.changeCell uri version edits
  | .closed uri => w.closeCell uri
  | .refreshed notebook cells => w.refresh notebook cells

end Workspace

end CellStitch
