import CellStitch.CommandLine.Console
import CellStitch.Document.Update
import CellStitch.NotebookFile
import CellStitch.Settings.File
/-!
# Answers

What each command prints about a notebook, message by message, and what it leaves behind. A notebook
that cannot be read, and a place that its document does not have, are reported with exit code 1; a
command line that asks for nothing sensible has exit code 2. Anything else that goes wrong is a
`Crash`.
-/

namespace CellStitch.CommandLine

/-- What a command leaves behind. -/
structure Output where
  exitCode : Nat
  stdout : String
  stderr : String
  /-- What kept the notebook from being read, if something did. -/
  unreadable : Option NotebookFlaw
  deriving Repr

/-- What goes wrong without being reported. -/
inductive Crash where
  | settings (fault : SettingsFault)
  | document (failure : Failure)
  /-- A word of the command line should name a file and can name nothing. -/
  | unusableName
  deriving Repr

/-- The wording of a crash. -/
def Crash.message : Crash → String
  | settings fault => fault.message
  | document failure => failure.message
  | unusableName => FileFault.unusableName.message

/-- What ends a command early. -/
inductive Stop where
  | crash (crash : Crash)
  /-- The notebook cannot be read. -/
  | notebook (fault : NotebookFault)
  /-- The document has no answer. -/
  | query (failure : Failure)
  deriving Repr

/-- What was written to the log, and the outcome. -/
abbrev Logged (α : Type) := List String × Except Stop α

/-! ### Opening a notebook -/

/-- The line that the log has for a cell that a document does not take. -/
def skippedLine (c : Cell) : String :=
  "DEBUG notebook_concat.document: not concatenating " ++ c.uri ++ " (language " ++ c.language ++
    ")\n"

/-- Opens cells one after another. -/
def openAll (d : Document) : List Cell → Logged Document
  | [] => ([], .ok d)
  | c :: cells =>
    match d.accepts c, d.openCell c with
    | .ok taken, .ok (d, _) =>
      let (log, opened) := openAll d cells
      (if taken then log else skippedLine c :: log, opened)
    | .error f, _ => ([], .error (.crash (.document f)))
    | _, .error f => ([], .error (.crash (.document f)))

/-- The settings of a notebook with what the command line puts in their place. -/
def settingsFor (t : FileTree) (notebook : Path) (config : Option String) (noMarks : Bool)
    (header : Option String) : Except Stop Settings := do
  let found ←
    (SettingsFile.forNotebook t notebook (config.map Path.ofString)).mapError fun fault ↦
      Stop.crash (.settings fault)
  let found := if noMarks then { found with disableMarks := .bool true } else found
  pure (match header with | none => found | some text => found.withHeader (.text text))

/-- The document of a notebook, before its cells are opened. -/
def emptyDocument (t : FileTree) (notebook : Path) (settings : Settings) :
    Except Failure Document := do
  let uri ← documentOf (NotebookFile.notebookUri (t.resolve notebook))
  Document.new uri settings

/-- The document of a notebook with all of its cells. -/
def documentFor (t : FileTree) (notebook : String) (config : Option String) (noMarks : Bool)
    (header : Option String) : Logged Document :=
  let path := Path.ofString notebook
  let start : Except Stop (Document × List Cell) := do
    let settings ← settingsFor t path config noMarks header
    let d ← (emptyDocument t path settings).mapError fun f ↦ .crash (.document f)
    let cells ← (NotebookFile.load t path).mapError .notebook
    pure (d, cells)
  match start with
  | .error stop => ([], .error stop)
  | .ok (d, cells) => openAll d cells

/-! ### What the commands print -/

/-- Whether a failure of a query is reported. -/
def isReported : Failure → Bool
  | .lineOutOfRange .. => true
  | .cellNotFound .. => true
  | _ => false

/-- A failure of a query, as far as it is reported. -/
def stopOf (f : Failure) : Stop := if isReported f then .query f else .crash (.document f)

/-- The place that a place in a document means: the URI of the cell, and the position in it. -/
def mapped (d : Document) (line character : Int) : Except Stop String :=
  match Position.ofInts? line character with
  | none => .error (.crash (.document .positionOutOfRange))
  | some p =>
    match d.notebookLocationAt ⟨p, p⟩ with
    | .error f => .error (stopOf f)
    | .ok l => .ok (l.uri ++ " " ++ l.range.start.render ++ "\n")

/-- One span of a listing. -/
def spanLine (s : Span) : String :=
  "  [" ++ toString s.start ++ ", " ++ toString s.stop ++ ") real=" ++ toString s.realStart ++
    (if s.verbatim then " cell " else " injected ") ++ String.ofList (Quoted.encode s.text) ++ "\n"

/-- The spans of cells, each cell under its URI. A cell without spans is not reported, as the
listing has begun by then. -/
def listed (d : Document) : List String → Except Stop (List String)
  | [] => .ok []
  | uri :: uris => do
    let spans ← (d.spansAt uri).mapError fun f ↦ Stop.crash (.document f)
    let rest ← listed d uris
    pure ((uri ++ "\n") :: spans.map spanLine ++ rest)

/-- The messages that a command prints one after another, and what it writes to the log. -/
def answer (t : FileTree) : Command → Logged (List String)
  | .render notebook config noMarks header =>
    let (log, d) := documentFor t notebook config noMarks header
    (log, d.map fun d ↦ [String.ofList d.text])
  | .map notebook line character config =>
    let (log, d) := documentFor t notebook config false none
    (log, d.bind fun d ↦ (mapped d line character).map ([·]))
  | .spans notebook config =>
    let (log, d) := documentFor t notebook config false none
    (log, d.bind fun d ↦ listed d d.cellUris)

/-! ### The whole program -/

/-- The line in which an error is reported. -/
def errorLine (message : String) : String := "error: " ++ message ++ "\n"

/-- Runs a command line on the files of a tree. The log is not printed but written as it is. -/
def Console.run (console : Console) (t : FileTree) (args : List String) : Except Crash Output :=
  match console.request t.isFile? args with
  | .error (.usage complaint) => .ok ⟨2, "", complaint, none⟩
  | .error .unusableName => .error .unusableName
  | .ok (.page text) => .ok ⟨0, console.written text, "", none⟩
  | .ok (.command verbose command) =>
    let (log, outcome) := answer t command
    let log := if verbose then String.join log else ""
    match outcome with
    | .ok messages => .ok ⟨0, String.join (messages.map console.written), log, none⟩
    | .error (.crash crash) => .error crash
    | .error (.query f) => .ok ⟨1, "", log ++ console.written (errorLine f.message), none⟩
    | .error (.notebook fault) =>
      .ok ⟨1, "", log ++ console.written (errorLine fault.message),
        if fault.flaw.isUnreadable then some fault.flaw else none⟩

end CellStitch.CommandLine
