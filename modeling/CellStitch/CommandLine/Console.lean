/-!
# Commands and the console

The program is built on a library for command lines, and the library is not part of it. Two things
are left to the library, and are parameters here (`Console`): what the words of a command line ask
for, and what is written of a text that is printed. In between stands a `Command`, with the values
that the library hands over to the function behind it.

`CommandLine.Console.run` is the program on any console; `CommandLine.Console.standard` is one of
them.
-/

namespace CellStitch.CommandLine

/-- What is to be done with a notebook. -/
inductive Command where
  /-- Print its document. -/
  | render (notebook : String) (config : Option String) (noMarks : Bool) (header : Option String)
  /-- Find the place in a cell that a place in the document means. -/
  | map (notebook : String) (line character : Int) (config : Option String)
  /-- List the spans of each cell. -/
  | spans (notebook : String) (config : Option String)
  deriving DecidableEq, Repr

/-- What a command line asks for. -/
inductive Request where
  /-- Something that the library answers alone: a page of help, or the version. -/
  | page (text : String)
  | command (verbose : Bool) (command : Command)
  deriving DecidableEq, Repr

/-- Why a command line asks for nothing. -/
inductive Refusal where
  /-- It makes no sense, or names a file that is not there. The library says what is wrong. -/
  | usage (complaint : String)
  /-- A word that should name a file can name nothing. -/
  | unusableName
  deriving DecidableEq, Repr

/-- What is left to the library for command lines. -/
structure Console where
  /-- What the words of a command line ask for, given which words name files. -/
  request : (String → Option Bool) → List String → Except Refusal Request
  /-- What is written of a text that is printed. -/
  written : String → String

end CellStitch.CommandLine
