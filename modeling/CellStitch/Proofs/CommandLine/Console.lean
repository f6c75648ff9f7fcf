import CellStitch.CommandLine.Answer
import CellStitch.Text.ControlSequence
import CellStitch.Text.Integer
/-!
# What is relied on of a console

The library for command lines is not part of the program. What its documentation says, and what the
commands rely on, is put in two groups: the words are read as the program declares them
(`Console.ReadsAsDeclared`), and the styles of a text are hidden where the output is no terminal
(`Console.HidesStyles`). Nothing is said about escape characters that belong to no style.

What a command leaves behind on a console is read off its answer (`run_of_answer_eq_ok`,
`run_of_answer_eq_crash`).
-/

namespace CellStitch

/-! ### Styles -/

namespace Text

/-- A style code: it tells a terminal how the letters behind it look. The numbers of the styles
stand between an opening bracket and an `m`. -/
def IsStyleCode (s : Text) : Prop :=
  ∃ styles, s = escapeChar :: '[' :: (styles ++ ['m']) ∧ ∀ c ∈ styles, c.isDigit = true ∨ c = ';'

/-- A style code stands somewhere in a text. -/
def HasStyleCode (t : Text) : Prop := ∃ s, IsStyleCode s ∧ s <:+: t

end Text

namespace CommandLine

/-! ### The console -/

/-- The files that a command is about: the notebook, and the settings if they are named. -/
def Command.files : Command → List String
  | .render notebook config _ _ => notebook :: config.toList
  | .map notebook _ _ config => notebook :: config.toList
  | .spans notebook config => notebook :: config.toList

/-- The words that ask for a place of a document: the settings first, and then the arguments behind
two dashes, where none of them is taken for an option. -/
def mapWords (config : Option String) (notebook line character : String) : List String :=
  "map" :: (config.elim [] (["--config", ·]) ++ ["--", notebook, line, character])

/-- The words of a command line are read as they are declared. -/
structure Console.ReadsAsDeclared (console : Console) : Prop where
  /-- The notebook and the settings are declared as paths of files that exist. -/
  files_exist : ∀ {isFile? : String → Option Bool} {args : List String} {verbose : Bool}
    {c : Command}, console.request isFile? args = .ok (.command verbose c) →
      ∀ file ∈ c.files, isFile? file = some true
  /-- `map` is declared with an option for the settings, and with a file and two whole numbers as
  arguments. -/
  request_mapWords : ∀ {isFile? : String → Option Bool} {config : Option String}
    {notebook line character : String} {l c : Int}, isFile? notebook = some true →
      (∀ file ∈ config, isFile? file = some true) → Text.integer? line.toList = some l →
      Text.integer? character.toList = some c →
      console.request isFile? (mapWords config notebook line character) =
        .ok (.command false (.map notebook l c config))

/-- The output is no terminal, and styles are hidden in it. -/
structure Console.HidesStyles (console : Console) : Prop where
  /-- Every style begins with an escape character. Nothing else is hidden. -/
  written_plain : ∀ {s : String}, Text.escapeChar ∉ s.toList → console.written s = s
  /-- A text with a style is not written as it is. -/
  written_styled : ∀ {s : String}, Text.HasStyleCode s.toList → console.written s ≠ s

/-! ### What is left behind -/

section Run

variable {console : Console} {t : FileTree} {args : List String} {verbose : Bool}
  {command : Command} (hargs : console.request t.isFile? args = .ok (.command verbose command))
  {log : List String}
include hargs

/-- A command that answers with one message succeeds, and the message is printed. -/
theorem run_of_answer_eq_ok {text : String} (hanswer : answer t command = (log, .ok [text])) :
    console.run t args = .ok ⟨0, console.written text,
      if verbose then String.join log else "", none⟩ := by
  rw [Console.run, hargs]
  simp [hanswer]

/-- A command that breaks off leaves nothing behind. -/
theorem run_of_answer_eq_crash {crash : Crash}
    (hanswer : answer t command = (log, .error (.crash crash))) :
    console.run t args = .error crash := by
  rw [Console.run, hargs]
  simp only [hanswer]

end Run

end CommandLine

end CellStitch
