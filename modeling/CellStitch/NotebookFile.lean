import CellStitch.Cell.Basic
import CellStitch.Files.Tree
import CellStitch.Json.Reader
import CellStitch.Settings.Basic
/-!
# Notebook files

A notebook file is a JSON object with a list of cells. Every cell becomes an open cell, in order: a
code cell has the language of the notebook, any other cell has its kind as language, and its text is
its source.

`NotebookFile.cellsOf` says what a value must look like and which of several flaws is reported: the
list of cells first, then the metadata, then the cells one by one.

No cell here can hold half of a surrogate pair. A notebook with one, somewhere in its file, is
refused if nothing else is wrong with it (`NotebookFlaw.loneSurrogate`).
-/

namespace CellStitch

/-- What is wrong with a notebook. -/
inductive NotebookFlaw where
  /-- The file cannot be read. -/
  | unreadable (fault : FileFault)
  /-- The file is not UTF-8. -/
  | notUtf8
  /-- The file is not JSON. -/
  | notJson
  /-- The file has a whole number with too many digits. -/
  | numberTooLong
  /-- The file has half of a surrogate pair, which no text here can hold. -/
  | loneSurrogate
  | noCells
  | metadataNotObject
  | languageInfoNotObject
  | cellNotObject (index : Nat)
  | malformedCellType (index : Nat)
  | malformedSource (index : Nat)
  deriving DecidableEq, Repr

namespace NotebookFlaw

/-- The wording of a flaw. -/
def message : NotebookFlaw → String
  | unreadable fault => fault.message
  | notUtf8 => "the file is not UTF-8"
  | notJson => "the file is not JSON"
  | numberTooLong => "a number has too many digits"
  | loneSurrogate => "a string has half of a surrogate pair"
  | noCells => "missing 'cells' list"
  | metadataNotObject => "'metadata' is not an object"
  | languageInfoNotObject => "'language_info' is not an object"
  | cellNotObject index => "cell " ++ toString index ++ " is not an object"
  | malformedCellType index => "cell " ++ toString index ++ " has a malformed 'cell_type'"
  | malformedSource index => "cell " ++ toString index ++ " has a malformed 'source'"

/-- Whether a flaw shows before the file is read as a value. -/
def isUnreadable : NotebookFlaw → Bool
  | unreadable _ | notUtf8 | notJson | numberTooLong | loneSurrogate => true
  | _ => false

end NotebookFlaw

/-- A notebook that cannot be read, with the path that it was asked for by. -/
structure NotebookFault where
  path : Path
  flaw : NotebookFlaw
  deriving DecidableEq, Repr

/-- The wording of a fault: the path, and what is wrong. -/
def NotebookFault.message (fault : NotebookFault) : String :=
  fault.path.render ++ ": " ++ fault.flaw.message

namespace NotebookFile

/-! ### Addresses -/

/-- The URI of the notebook at a place. -/
def notebookUri (place : List String) : String :=
  String.ofList notebookScheme ++ ":" ++ FileTree.render place

/-- A number with zeros in front, up to eight digits in all. -/
def eightDigits (n : Nat) : String :=
  let digits := Nat.toDigits 10 n
  String.ofList (List.replicate (8 - digits.length) '0' ++ digits)

/-- The URI of a cell of the notebook at a place. -/
def cellUri (place : List String) (index : Nat) : String :=
  String.ofList cellScheme ++ ":" ++ FileTree.render place ++ "#ch" ++ eightDigits index

/-! ### Parts of a notebook -/

/-- The language of the code cells of a notebook. A name that is missing, empty or no text stands
for the default. -/
def languageOf (notebook : List (String × Value)) : Except NotebookFlaw String :=
  match (Value.entry? notebook "metadata").getD (.table []) with
  | .table metadata =>
    match (Value.entry? metadata "language_info").getD (.table []) with
    | .table info =>
      match Value.entry? info "name" with
      | some (.text name) => .ok (if name.isEmpty then Settings.defaultLanguage else name)
      | _ => .ok Settings.defaultLanguage
    | _ => .error .languageInfoNotObject
  | _ => .error .metadataNotObject

/-- The text of a cell: a text, or texts that follow one another. -/
def sourceOf (index : Nat) (cell : List (String × Value)) : Except NotebookFlaw Text :=
  match (Value.entry? cell "source").getD (.text "") with
  | .text s => .ok s.toList
  | .list items =>
    match Value.texts? items with
    | some parts => .ok (parts.flatMap String.toList)
    | none => .error (.malformedSource index)
  | _ => .error (.malformedSource index)

/-- One cell of a notebook. -/
def cellOf (uri : String) (language : String) (index : Nat) :
    Value → Except NotebookFlaw Cell
  | .table cell =>
    match (Value.entry? cell "cell_type").getD (.text "code") with
    | .text kind => do
      let source ← sourceOf index cell
      pure ⟨uri, if kind = "code" then language else kind, 1, source⟩
    | _ => .error (.malformedCellType index)
  | _ => .error (.cellNotObject index)

/-- The cells of a notebook from an index on. -/
def cellsFrom (uri : Nat → String) (language : String) (index : Nat) :
    List Value → Except NotebookFlaw (List Cell)
  | [] => .ok []
  | v :: rest => do
    let cell ← cellOf (uri index) language index v
    let cells ← cellsFrom uri language (index + 1) rest
    pure (cell :: cells)

/-- The cells of a notebook, given the URI of each. -/
def cellsOf (uri : Nat → String) : Value → Except NotebookFlaw (List Cell)
  | .table notebook =>
    match Value.entry? notebook "cells" with
    | some (.list cells) => do
      let language ← languageOf notebook
      cellsFrom uri language 0 cells
    | _ => .error .noCells
  | _ => .error .noCells

/-! ### Reading a file -/

/-- What a fault of a text is for the notebook in it. -/
def flawOf : Json.Fault → NotebookFlaw
  | .malformed => .notJson
  | .numberTooLong => .numberTooLong
  | .loneSurrogate => .loneSurrogate

/-- The cells of the notebook in a text, given the URI of each. A text with half of a surrogate pair
is looked at for its shape all the same, but is not read. -/
def cellsIn (uri : Nat → String) (t : Text) : Except NotebookFlaw (List Cell) :=
  match Json.read t with
  | .ok v => cellsOf uri v
  | .error .loneSurrogate => do
    let v ← (Json.readWith '\uFFFD' t).mapError flawOf
    let _ ← cellsOf uri v
    .error .loneSurrogate
  | .error fault => .error (flawOf fault)

/-- The cells of the notebook at a path. -/
def load (t : FileTree) (p : Path) : Except NotebookFault (List Cell) :=
  let cells : Except NotebookFlaw (List Cell) := do
    let contents ← (t.read p).mapError .unreadable
    match String.fromUTF8? contents with
    | none => .error .notUtf8
    | some s => cellsIn (cellUri (t.resolve p)) s.toList
  cells.mapError fun flaw ↦ ⟨p, flaw⟩

end NotebookFile

end CellStitch
