import CellStitch.Text.Taken
/-!
# Control sequences

A control sequence tells a terminal how to show a text: an escape character and an opening bracket,
parameters, intermediate characters, and one final character. A text for a file or another program
is written without them (`Text.withoutControlSequences`). An escape character that starts no whole
sequence stays.
-/

namespace CellStitch.Text

/-- The character that control sequences start with. -/
def escapeChar : Char := '\x1b'

/-- Whether a character is a parameter of a control sequence: a digit or one of `:;<=>?`. -/
def isParameter (c : Char) : Bool := '0' ≤ c && c ≤ '?'

/-- Whether a character is an intermediate one of a control sequence: from the blank to the
slash. -/
def isIntermediate (c : Char) : Bool := ' ' ≤ c && c ≤ '/'

/-- Whether a character ends a control sequence: from `@` to the tilde. -/
def isFinal (c : Char) : Bool := '@' ≤ c && c ≤ '~'

/-- What is left behind the control sequence whose escape character stands in front of a text. -/
def afterSequence? : (s : Text) → Option (Ending s)
  | '[' :: t =>
    let parameters := Ending.afterWhile (s := t) isParameter
    let body := parameters.trans (.afterWhile isIntermediate)
    (body.takeIf? isFinal).map fun x ↦ x.ending.behind
  | _ => none

/-- A text without its control sequences. What moves together where one was taken out is not looked
at again. -/
def withoutControlSequences (t : Text) : Text :=
  match t with
  | [] => []
  | c :: rest =>
    if c = escapeChar then
      match afterSequence? rest with
      | some left => withoutControlSequences left.text
      | none => c :: withoutControlSequences rest
    else c :: withoutControlSequences rest
termination_by t.length
decreasing_by
  · exact Nat.lt_succ_of_le left.length_le
  · exact Nat.lt_succ_self _
  · exact Nat.lt_succ_self _

end CellStitch.Text
