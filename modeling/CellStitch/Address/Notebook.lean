import CellStitch.Address.SlashPath
import CellStitch.Address.Url
/-!
# Addresses of cells, notebooks and documents

What the URI of a cell tells about it, and which notebook and which document belong to a cell. A
notebook has the host and path of its cells under a scheme of its own. Its document is a file beside
it, whose name is made from the notebook's.
-/

namespace CellStitch

/-! ### Schemes -/

/-- The scheme of notebooks. -/
def notebookScheme : Text := "vscode-notebook".toList

/-- The scheme of the cells of a notebook. -/
def cellScheme : Text := "vscode-notebook-cell".toList

/-- The scheme of the input box of an interactive window. -/
def inputScheme : Text := "vscode-interactive-input".toList

/-- The scheme of interactive windows. -/
def interactiveScheme : Text := "vscode-interactive".toList

/-- What stands in front of a notebook's name in the name of its document. -/
def documentMark : Text := "_NotebookConcat_".toList

/-! ### What a URI names -/

namespace Url

/-- Whether a URL belongs to an interactive window: to its input box, or to its history. -/
def isInteractive (url : Url) : Bool :=
  interactiveScheme.occursIn url.fragment || ".interactive".toList.isSuffixOf url.path ||
    inputScheme.occursIn url.scheme || interactiveScheme.occursIn url.scheme

/-- Whether a URL is that of a cell, of a notebook or of an interactive window. -/
def isCell (url : Url) : Bool :=
  cellScheme.occursIn url.scheme || inputScheme.occursIn url.scheme

/-- Whether a URL is that of the input box of an interactive window. -/
def isInput (url : Url) : Bool := url.scheme == inputScheme

/-- The notebook, or interactive window, of a cell. Query and fragment are dropped. -/
def notebook (url : Url) : Text :=
  render (if url.isInteractive then interactiveScheme else notebookScheme) url.host url.path

/-- The document of a notebook. -/
def document (url : Url) : Text :=
  let path := if url.path.isEmpty then ['/'] else url.path
  let folder := SlashPath.folder path
  let folder := if folder.isEmpty then ['/'] else folder
  let name := documentMark ++ SlashPath.name path ++ ".py".toList
  render "file".toList url.host (SlashPath.join folder name)

end Url

/-- Whether a URI belongs to an interactive window. -/
def isInteractive (uri : String) : Except Failure Bool := (Url.parse uri).map Url.isInteractive

/-- Whether a URI is that of a cell. -/
def isCell (uri : String) : Except Failure Bool := (Url.parse uri).map Url.isCell

/-- Whether a URI is that of the input box of an interactive window. -/
def isInput (uri : String) : Except Failure Bool := (Url.parse uri).map Url.isInput

/-- The URI of the notebook that a cell belongs to, as far as the cell's URI tells. -/
def notebookOf (cell : String) : Except Failure String :=
  (Url.parse cell).map fun url ↦ String.ofList url.notebook

/-- The URI of the document of a notebook. -/
def documentOf (notebook : String) : Except Failure String :=
  (Url.parse notebook).map fun url ↦ String.ofList url.document

end CellStitch
