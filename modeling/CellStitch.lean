import CellStitch.Address.BracketHost
import CellStitch.Address.Notebook
import CellStitch.Address.SlashPath
import CellStitch.Address.Url
import CellStitch.Cell.Basic
import CellStitch.Cell.Order
import CellStitch.Cell.Run
import CellStitch.CommandLine.Answer
import CellStitch.CommandLine.Arguments
import CellStitch.CommandLine.Console
import CellStitch.CommandLine.Run
import CellStitch.Document.Basic
import CellStitch.Document.Query
import CellStitch.Document.Run
import CellStitch.Document.Update
import CellStitch.Edit
import CellStitch.Event
import CellStitch.Failure
import CellStitch.Files.Path
import CellStitch.Files.Tree
import CellStitch.Json.Reader
import CellStitch.Main
import CellStitch.NotebookFile
import CellStitch.Position
import CellStitch.Receiver
import CellStitch.Rendering
import CellStitch.Run
import CellStitch.Settings.Basic
import CellStitch.Settings.File
import CellStitch.SkipMark
import CellStitch.Span.Basic
import CellStitch.Span.Layout
import CellStitch.Span.OffsetMap
import CellStitch.Span.Scan
import CellStitch.Text.Blank
import CellStitch.Text.ControlSequence
import CellStitch.Text.Integer
import CellStitch.Text.LineStarts
import CellStitch.Text.Lines
import CellStitch.Text.Offsets
import CellStitch.Text.Quoted
import CellStitch.Text.Search
import CellStitch.Text.Taken
import CellStitch.Toml.Basic
import CellStitch.Toml.Moment
import CellStitch.Toml.Reader
import CellStitch.Toml.Strings
import CellStitch.Toml.Table
import CellStitch.Value.Basic
import CellStitch.Value.Double
import CellStitch.Value.Literal
import CellStitch.Value.Numeral
import CellStitch.Workspace.Basic
import CellStitch.Workspace.Report
import CellStitch.Workspace.Run
import CellStitch.Proofs.Cell.Order
import CellStitch.Proofs.Document.Cells
import CellStitch.Proofs.Document.Coverage
import CellStitch.Proofs.Document.Edit
import CellStitch.Proofs.Document.FailedChange
import CellStitch.Proofs.Document.Layout
import CellStitch.Proofs.Document.Lines
import CellStitch.Proofs.Document.Mapping
import CellStitch.Proofs.Document.Mirror
import CellStitch.Proofs.Document.Rebuild
import CellStitch.Proofs.Document.Settled
import CellStitch.Proofs.Document.Step
import CellStitch.Proofs.Edit
import CellStitch.Proofs.Run
import CellStitch.Proofs.Span.Columns
import CellStitch.Proofs.Span.Copies
import CellStitch.Proofs.Span.Layout
import CellStitch.Proofs.Span.OffsetMap
import CellStitch.Proofs.Text.Order
import CellStitch.Proofs.Text.Positions
import CellStitch.Proofs.Text.WholeLines
import CellStitch.Proofs.Workspace.Documents
import CellStitch.Proofs.Workspace.InStep
import CellStitch.Proofs.Workspace.Independence
import CellStitch.Proofs.Workspace.Protocol
import CellStitch.Proofs.Workspace.Scope
import CellStitch.Proofs.Workspace.Effect
import CellStitch.Proofs.Workspace.Owners
import CellStitch.Proofs.Workspace.OneHolder
import CellStitch.Proofs.Document.Reported
import CellStitch.Proofs.Workspace.Diagnostics
import CellStitch.Proofs.Cell.Apart
import CellStitch.Proofs.Document.Change
import CellStitch.Proofs.Document.Determined
import CellStitch.Proofs.Document.Commute
import CellStitch.Proofs.Cell.InputBoxes
import CellStitch.Proofs.Cell.OpenedInTurn
import CellStitch.Proofs.Document.Refresh
import CellStitch.Proofs.Document.Distinct
import CellStitch.Proofs.Document.Versions
import CellStitch.Proofs.Text.Injective
import CellStitch.Proofs.Document.Told
import CellStitch.Proofs.Workspace.FailedRefresh
import CellStitch.Proofs.Text.ControlSequence
import CellStitch.Proofs.Address.Scheme
import CellStitch.Proofs.NotebookFile
import CellStitch.Proofs.Document.Characters
import CellStitch.Proofs.Text.Integer
import CellStitch.Proofs.CommandLine.Console
import CellStitch.Proofs.CommandLine.Opening
import CellStitch.Proofs.CommandLine.Render
import CellStitch.Proofs.CommandLine.Map
import CellStitch.Proofs.CommandLine.Standard
import CellStitch.Proofs.Address.Document
import CellStitch.Document.Checked
import CellStitch.Proofs.Document.Checked
import CellStitch.Proofs.Document.Narrow
import CellStitch.Proofs.SkipMark
import CellStitch.Proofs.Span.Tiling
import CellStitch.Proofs.Span.Rendered
import CellStitch.Proofs.Cell.History
import CellStitch.Proofs.Document.Positions
import CellStitch.Proofs.Span.Adjoint
import CellStitch.Proofs.Span.Scan
import CellStitch.Proofs.Json.WholeNumber
import CellStitch.Proofs.NotebookFile.Shape
import CellStitch.Proofs.Bisection
import CellStitch.Proofs.Text.Search
import CellStitch.Proofs.Cell.Positions
import CellStitch.Proofs.Document.Search
import CellStitch.Proofs.Document.Wire
