import CellStitch.Workspace.Basic
/-!
# Results of the server

What a server reports on a document is brought back to the cells: locations, and diagnostics in
groups, one for each cell. Results about the header have no place in a cell and are dropped, and so
are results behind the end of a document, which were found in an older text.
-/

namespace CellStitch

/-- What a server has to say about a range. Its other parts (tags, data, related information and the
description of the code) go along with it unread, and are left out. -/
structure Diagnostic where
  range : Range
  message : String
  severity : Value
  code : Value
  source : Value
  deriving Repr

/-- The range of a document that is left of a range found in an older text. There is none if it
starts behind the end; one that only stops there is cut at the end. -/
def Document.within (d : Document) (r : Range) : Option Range :=
  if d.lineCount ≤ r.start.line then none
  else if r.stop.line < d.lineCount then some r
  else some ⟨r.start, d.positionAt d.text.length⟩

/-- The location in a cell that a reported range means. There is none for what lies behind the end
or in the header. -/
def Document.reported (d : Document) (r : Range) : Except Failure (Option Location) :=
  match d.within r with
  | none => .ok none
  | some r => do
    if ← d.inHeader r.start then pure none
    else
      let l ← d.notebookLocationAt r
      pure (some l)

namespace Workspace

/-- The position of a cell in its document. -/
def toDocumentPosition (w : Workspace) (cell : String) (p : Position) :
    Except Failure (Option Position) := do
  match ← w.documentFor cell with
  | none => pure none
  | some d =>
    let found ← d.positionOf ⟨cell, ⟨p, p⟩⟩
    pure (some found)

/-- The location in a cell that a range of a document means. -/
def toNotebookLocation (w : Workspace) (uri : String) (r : Range) :
    Except Failure (Option Location) :=
  match w.document? uri with
  | none => .ok none
  | some d => do
    let l ← d.notebookLocationAt r
    pure (some l)

/-- Brings locations back to the cells. Locations in other files stay as they are. -/
def toNotebookLocations (w : Workspace) : List Location → Except Failure (List Location)
  | [] => .ok []
  | l :: locations => do
    let found ←
      match w.document? l.uri with
      | none => pure (some l)
      | some d => d.reported l.range
    let rest ← w.toNotebookLocations locations
    pure (found.toList ++ rest)

/-! ### Diagnostics -/

/-- Diagnostics in groups, one for each cell. -/
abbrev Groups := List (String × List Diagnostic)

/-- The cells of a document, each once, with no diagnostics yet. -/
def emptyGroups (cells : List String) : Groups :=
  cells.foldl (fun groups cell ↦
    if groups.any (·.1 == cell) then groups else groups ++ [(cell, [])]) []

/-- Adds a diagnostic to the group of its cell. -/
def addTo (cell : String) (x : Diagnostic) : Groups → Groups
  | [] => [(cell, [x])]
  | (c, xs) :: groups =>
    if c = cell then (c, xs ++ [x]) :: groups else (c, xs) :: addTo cell x groups

/-- Adds diagnostics of a document to the groups of their cells, in order. -/
def group (d : Document) (groups : Groups) : List Diagnostic → Except Failure Groups
  | [] => .ok groups
  | x :: rest => do
    match ← d.reported x.range with
    | none => group d groups rest
    | some l => group d (addTo l.uri { x with range := l.range } groups) rest

/-- Brings the diagnostics of a document back to its cells. Every cell has a group, so that the
diagnostics of a cell that has none any more are cleared. -/
def toNotebookDiagnostics (w : Workspace) (uri : String) (diagnostics : List Diagnostic) :
    Except Failure Groups :=
  match w.document? uri with
  | none => .ok []
  | some d => group d (emptyGroups d.cellUris) diagnostics

end Workspace

end CellStitch
