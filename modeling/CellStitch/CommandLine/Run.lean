import CellStitch.CommandLine.Answer
import CellStitch.CommandLine.Arguments
import CellStitch.Text.ControlSequence
/-!
# The standard console

The console that the program runs on: words are read as usual, and what is printed goes to something
that is no terminal, and so without control sequences.
-/

namespace CellStitch.CommandLine

/-- The console of a program whose output is read by another program. -/
def Console.standard : Console where
  request := CommandLine.request
  written s := String.ofList (Text.withoutControlSequences s.toList)

/-- Runs a command line on the standard console. -/
def run (t : FileTree) (args : List String) : Except Crash Output := Console.standard.run t args

end CellStitch.CommandLine
