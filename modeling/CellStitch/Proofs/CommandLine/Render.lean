import CellStitch.Proofs.CommandLine.Opening
import CellStitch.Proofs.CommandLine.Standard
import Mathlib
/-!
# What `render` prints

The document of a notebook is printed, and the command succeeds (`run_render`). Which document that
is, is said line by line and without spans (`stitched`).

Two things stand in the way. A notebook without an address has no document, and the command breaks
off. And a document that is not printed for a terminal loses its styles: those of the output of some
program that was pasted into a cell, say. A document without escape characters is printed as it is.
-/

namespace CellStitch.CommandLine

variable {console : Console} {t : FileTree} {args : List String} {verbose noMarks disabled : Bool}
  {notebook h language : String} {config header : Option String} {cells : List Cell}

section Render

variable (hargs : console.request t.isFile? args =
    .ok (.command verbose (.render notebook config noMarks header)))
  (hsettings : settingsFor t (Path.ofString notebook) config noMarks header =
    .ok (.plain disabled h language))
include hargs hsettings

/-- Of a notebook without an address nothing is printed. -/
theorem run_render_eq_error {f : Failure}
    (haddress : documentOf (NotebookFile.notebookUri (t.resolve (Path.ofString notebook))) =
      .error f) :
    console.run t args = .error (.document f) := by
  have hanswer : answer t (.render notebook config noMarks header) =
      ([], .error (.crash (.document f))) := by
    rw [answer, documentFor_eq_error hsettings haddress]
    rfl
  exact run_of_answer_eq_crash hargs hanswer

/-- Of any other notebook the document is printed. -/
theorem run_render_eq_written
    (hcells : NotebookFile.load t (Path.ofString notebook) = .ok cells) {uri : String}
    (haddress : documentOf (NotebookFile.notebookUri (t.resolve (Path.ofString notebook))) =
      .ok uri) :
    console.run t args = .ok ⟨0,
      console.written (String.ofList (stitched disabled h (cells.filter (·.language = language)))),
      logOf verbose language cells, none⟩ := by
  obtain ⟨d, hdocument, hd⟩ := exists_documentFor hsettings hcells haddress
  refine run_of_answer_eq_ok hargs ?_
  rw [answer, hdocument, ← hd.text_eq]
  rfl

end Render

/-- The words that ask for the document of the notebook in a folder. -/
theorem request_render_folderOf (contents : String) :
    Console.standard.request (folderOf contents).isFile? ["render", "n.ipynb"] =
      .ok (.command false (.render "n.ipynb" none false none)) := rfl

/-- A notebook with a magic and a line of code, and prose between them. -/
def magicNotebook : String :=
  "\x7b\"cells\": [\x7b\"source\": \"%time x\\r\\n\"\x7d, \x7b\"cell_type\": \"markdown\"\x7d, " ++
    "\x7b\"source\": \"y\"\x7d]\x7d"

theorem load_magicNotebook : NotebookFile.load (folderOf magicNotebook) (Path.ofString "n.ipynb") =
    .ok [⟨"vscode-notebook-cell:/work/n.ipynb#ch00000000", "python", 1, "%time x\r\n".toList⟩,
      ⟨"vscode-notebook-cell:/work/n.ipynb#ch00000001", "markdown", 1, []⟩,
      ⟨"vscode-notebook-cell:/work/n.ipynb#ch00000002", "python", 1, ['y']⟩] := by
  have hv : Json.read magicNotebook.toList = .ok (.table [("cells", .list
      [.table [("source", .text "%time x\r\n")], .table [("cell_type", .text "markdown")],
        .table [("source", .text "y")]])]) := by
    cbv
  exact load_folderOf hv rfl

/-- A notebook with a style code, which tells a terminal to write bold letters. -/
def boldNotebook : String := "\x7b\"cells\": [\x7b\"source\": \"\\u001b[1mx\"\x7d]\x7d"

theorem load_boldNotebook : NotebookFile.load (folderOf boldNotebook) (Path.ofString "n.ipynb") =
    .ok [⟨"vscode-notebook-cell:/work/n.ipynb#ch00000000", "python", 1, "\x1b[1mx".toList⟩] := by
  have hv : Json.read boldNotebook.toList =
      .ok (.table [("cells", .list [.table [("source", .text "\x1b[1mx")]])]) := by
    cbv
  exact load_folderOf hv rfl

/-- The document of this notebook has a style code. -/
theorem hasStyleCode_boldNotebook : Text.HasStyleCode "\x1b[1mx\n".toList := by
  have hcode : Text.IsStyleCode [Text.escapeChar, '[', '1', 'm'] := ⟨['1'], rfl, by simp⟩
  exact ⟨_, hcode, [], ['x', '\n'], rfl⟩

end CellStitch.CommandLine
