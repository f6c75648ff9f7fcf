import CellStitch.CommandLine.Console
import CellStitch.Text.Integer
/-!
# Arguments

One way to read the words of a command line. Options of the program stand before the command;
options of a command may stand anywhere behind it, until two dashes end them. Of an option that is
given more than once, the last value counts. Help and the version are given before anything else is
looked at, as soon as the words can be sorted into options and arguments.
-/

namespace CellStitch.CommandLine

/-! ### Options -/

/-- The options that may be given. -/
structure OptionTable where
  /-- Options that are given alone, by their long names. -/
  flags : List String
  /-- Options of one letter, and the long names that they stand for. -/
  letters : List (Char × String)
  /-- Options with a value behind them. -/
  valued : List String
  /-- Whether options may stand behind an argument. -/
  anywhere : Bool

/-- The options and arguments of a command line. -/
structure Words where
  flags : List String
  /-- The values of options, the first one first. -/
  values : List (String × String)
  arguments : List String
  deriving Repr

namespace Words

/-- Nothing at all. -/
def empty : Words := ⟨[], [], []⟩

/-- Adds a value in front. -/
def withValue (w : Words) (name value : String) : Words :=
  { w with values := (name, value) :: w.values }

/-- Whether an option was given. -/
def hasFlag (w : Words) (name : String) : Bool := w.flags.contains name

/-- The value of an option. -/
def value? (w : Words) (name : String) : Option String := w.values.reverse.lookup name

end Words

/-- Reads an option of letters: a dash, and a letter for each option. -/
def OptionTable.letterFlags? (table : OptionTable) (letters : Text) : Option (List String) :=
  letters.mapM fun c ↦ table.letters.lookup c

/-- Sorts words into options and arguments. There is no result for an option that may not be given,
a value that is missing, or a value that should not be there. -/
def OptionTable.sort (table : OptionTable) : List String → Option Words
  | [] => some .empty
  | word :: rest =>
    match word.toList with
    | '-' :: '-' :: [] => some { Words.empty with arguments := rest }
    | '-' :: '-' :: long =>
      let name := String.ofList (Text.cutAt long '=').1
      if long.contains '=' then
        if table.valued.contains name then
          (table.sort rest).map (·.withValue name (String.ofList (Text.cutAt long '=').2))
        else none
      else if table.flags.contains name then
        (table.sort rest).map fun w ↦ { w with flags := name :: w.flags }
      else if table.valued.contains name then
        match rest with
        | [] => none
        | value :: rest => (table.sort rest).map (·.withValue name value)
      else none
    | '-' :: c :: letters =>
      match table.letterFlags? (c :: letters) with
      | none => none
      | some flags => (table.sort rest).map fun w ↦ { w with flags := flags ++ w.flags }
    | _ =>
      if table.anywhere then
        (table.sort rest).map fun w ↦ { w with arguments := word :: w.arguments }
      else some { Words.empty with arguments := word :: rest }

/-! ### Declarations -/

/-- What a command is declared to be: its options, and what help says about it. -/
structure Declaration where
  options : OptionTable
  /-- What stands behind the name of the program where its use is shown. -/
  usage : String
  about : String
  /-- The options as help shows them. -/
  notes : List String

/-- What help says about the option that all commands have, to name a file of settings. -/
def configNote : String := "--config FILE     Path to notebook-concat.toml."

/-- The declaration of `render`. -/
def renderDeclaration : Declaration where
  options := ⟨["no-type-ignore", "help"], [], ["config", "header"], true⟩
  usage := "render [OPTIONS] NOTEBOOK"
  about := "Print the synthetic document for NOTEBOOK."
  notes := [configNote, "--no-type-ignore  Do not annotate magics and shell escapes.",
    "--header TEXT     Header text placed before the first cell."]

/-- The declaration of `map`. -/
def mapDeclaration : Declaration where
  options := ⟨["help"], [], ["config"], true⟩
  usage := "map [OPTIONS] NOTEBOOK LINE CHARACTER"
  about := "Map a 0-indexed LINE:CHARACTER of the synthetic document back to its cell."
  notes := [configNote]

/-- The declaration of `spans`. -/
def spansDeclaration : Declaration where
  options := ⟨["help"], [], ["config"], true⟩
  usage := "spans [OPTIONS] NOTEBOOK"
  about := "List the spans each cell contributes to the synthetic document."
  notes := [configNote]

/-- The commands by their names. -/
def declarations : List (String × Declaration) :=
  [("map", mapDeclaration), ("render", renderDeclaration), ("spans", spansDeclaration)]

/-- The declaration of the program, which lists its commands. -/
def programDeclaration : Declaration where
  options := ⟨["verbose", "version", "help"], [('v', "verbose")], [], false⟩
  usage := "[OPTIONS] COMMAND [ARGS]..."
  about := "Concatenate notebook cells into one Python document."
  notes := ["--version         Show the version and exit.",
    "-v, --verbose     Log debug output to stderr."] ++
      declarations.map fun (name, declared) ↦ name ++ ": " ++ declared.about

/-! ### Pages -/

/-- What the program calls itself, and its version. -/
def versionLine : String := "notebook-concat, version 0.1.0\n"

/-- How a command is used. -/
def Declaration.usageLine (declared : Declaration) : String :=
  "Usage: notebook-concat " ++ declared.usage ++ "\n"

/-- The page of help about a command. -/
def Declaration.helpPage (declared : Declaration) : String :=
  declared.usageLine ++ "\n  " ++ declared.about ++ "\n\n" ++
    String.join ((declared.notes ++ ["--help            Show this message and exit."]).map
      fun note ↦ "  " ++ note ++ "\n")

/-- The page that words ask for, if they do. The first of several such options counts. -/
def Declaration.page? (declared : Declaration) (words : Words) : Option String :=
  words.flags.findSome? fun flag ↦
    if flag = "help" then some declared.helpPage
    else if flag = "version" then some versionLine
    else none

/-! ### Commands -/

/-- Checks that a word names a file. -/
def checkFile (isFile? : String → Option Bool) (declared : Declaration) (word : String) :
    Except Refusal Unit :=
  match isFile? word with
  | some true => .ok ()
  | some false => .error (.usage declared.usageLine)
  | none => .error .unusableName

/-- Reads the values of a command. The files that it names must be there: the one of its option is
looked at first, then the notebook, and only then the other arguments. -/
def commandOf (isFile? : String → Option Bool) (name : String) (declared : Declaration)
    (words : Words) : Except Refusal Command := do
  let config := words.value? "config"
  match config with
  | none => pure ()
  | some file => checkFile isFile? declared file
  match words.arguments with
  | [] => .error (.usage declared.usageLine)
  | notebook :: more =>
    checkFile isFile? declared notebook
    match name, more with
    | "render", [] =>
      pure (.render notebook config (words.hasFlag "no-type-ignore") (words.value? "header"))
    | "map", [line, character] =>
      match Text.integer? line.toList, Text.integer? character.toList with
      | some line, some character => pure (.map notebook line character config)
      | _, _ => .error (.usage declared.usageLine)
    | "spans", [] => pure (.spans notebook config)
    | _, _ => .error (.usage declared.usageLine)

/-- Reads what stands behind the name of a command. -/
def command (isFile? : String → Option Bool) (verbose : Bool) (name : String)
    (declared : Declaration) (args : List String) : Except Refusal Request :=
  match declared.options.sort args with
  | none => .error (.usage declared.usageLine)
  | some words =>
    match declared.page? words with
    | some text => .ok (.page text)
    | none => (commandOf isFile? name declared words).map (.command verbose)

/-- Reads a command line, given which words name files. Words that name no command are read once
more for options of the program, which may have been hidden behind two dashes. -/
def request (isFile? : String → Option Bool) (args : List String) : Except Refusal Request :=
  let program := programDeclaration
  match program.options.sort args with
  | none => .error (.usage program.usageLine)
  | some words =>
    match program.page? words, words.arguments with
    | some text, _ => .ok (.page text)
    | none, [] => .error (.usage program.usageLine)
    | none, name :: more =>
      match declarations.lookup name with
      | some declared => command isFile? (words.hasFlag "verbose") name declared more
      | none =>
        match (program.options.sort words.arguments).bind program.page? with
        | some text => .ok (.page text)
        | none => .error (.usage program.usageLine)

end CellStitch.CommandLine
