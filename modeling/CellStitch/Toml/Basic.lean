import CellStitch.Text.Taken
/-!
# TOML: white space and comments

What may stand between the parts of a TOML text, and the characters that may not stand in it at all.
A line break is the single character `'\n'`; pairs of a carriage return and a line break count as
line breaks (`Toml.joinBreaks`).
-/

namespace CellStitch.Toml

/-- Why a text is not read. -/
inductive Fault where
  /-- The text is not TOML. -/
  | malformed
  /-- A whole number has too many digits. -/
  | numberTooLong
  deriving DecidableEq, Repr

/-- A text with single characters for its line breaks. -/
def joinBreaks : Text → Text
  | [] => []
  | [c] => [c]
  | c :: d :: t => if c = '\r' ∧ d = '\n' then '\n' :: joinBreaks t else c :: joinBreaks (d :: t)

/-- Whether a character is white space within a line. -/
def isSpace (c : Char) : Bool := c == ' ' || c == '\t'

/-- Whether a character is white space, line breaks included. -/
def isSpaceOrBreak (c : Char) : Bool := isSpace c || c == '\n'

/-- Whether a character may not stand on a line: control characters other than the tab. -/
def isForbidden (c : Char) : Bool := (c.toNat < 0x20 && c != '\t') || c.toNat == 0x7F

/-- Whether a character may not stand in a text of several lines. -/
def isForbiddenInLines (c : Char) : Bool := isForbidden c && c != '\n'

/-- A text without the comment that it begins with. -/
def skipComment : (s : Text) → Except Fault (Ending s)
  | '#' :: t =>
    if (t.takeWhile (· ≠ '\n')).any isForbidden then .error .malformed
    else .ok (Ending.afterWhile (· ≠ '\n')).behind
  | _ => .ok .whole

/-- A text without the white space, line breaks and comments that it begins with. -/
def skipLines (s : Text) : Except Fault (Ending s) :=
  match s with
  | [] => .ok .whole
  | c :: t =>
    if isSpaceOrBreak c then do
      let r ← skipLines t
      pure r.behind
    else if c = '#' then
      if (t.takeWhile (· ≠ '\n')).any isForbidden then .error .malformed
      else do
        let line := Ending.afterWhile (s := t) (· ≠ '\n')
        let r ← skipLines line.text
        pure (line.trans r).behind
    else .ok .whole
termination_by s.length
decreasing_by
  · exact Nat.lt_succ_self _
  · exact Nat.lt_succ_of_le line.length_le

end CellStitch.Toml
