import CellStitch.Text.LineStarts
import CellStitch.Text.Offsets
/-!
# Edits

An edit replaces a whole text or a range of it. `Edit.between` is the smallest single replacement
that turns one text into another, and `Edit.applyTo` carries an edit out on a text, as a client does
on a cell and a server on a document.
-/

namespace CellStitch

/-- A change of a text. -/
inductive Edit where
  /-- The text is replaced as a whole. -/
  | whole (text : Text)
  /-- The characters of a range are replaced. -/
  | ranged (range : Range) (text : Text)
  deriving DecidableEq, Repr

namespace Edit

/-- The characters that an edit puts in. -/
def text : Edit → Text
  | whole t => t
  | ranged _ t => t

/-- The number of characters that two texts have in common at their beginnings. -/
def commonFront : Text → Text → Nat
  | a :: s, b :: t => if a = b then commonFront s t + 1 else 0
  | _, _ => 0

/-- The smallest single replacement that turns `old` into `new`, or none if they are equal. What
the texts share in front is kept first; of the rest, what they share at the end. -/
def between (old new : Text) : Option Edit :=
  if old = new then none
  else
    let front := commonFront old new
    let back := commonFront (old.drop front).reverse (new.drop front).reverse
    let starts := old.lineStarts
    some (.ranged
      ⟨.ofLineStarts starts front, .ofLineStarts starts (old.length - back)⟩
      ((new.drop front).take (new.length - back - front)))

/-- The text after an edit. There is none if the range names a line that the text does not have, or
stops before it starts. -/
def applyTo (t : Text) : Edit → Option Text
  | whole new => some new
  | ranged range new => do
    let start ← t.offsetAt? range.start
    let stop ← t.offsetAt? range.stop
    if start ≤ stop then some (t.splice start stop new) else none

end Edit

end CellStitch
