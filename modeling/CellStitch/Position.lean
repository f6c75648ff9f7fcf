/-!
# Positions, ranges and locations

Positions count lines and characters from 0, and characters are code points. A `Range` runs from
its start up to its stop; nothing here says that the start comes first, because ranges also arrive
from clients. A `Location` is a range in the text that a URI names.

`Position.ofInts?` admits exactly the numbers a position may have on the wire, and
`Position.onWire?` the positions that have such numbers.
-/

namespace CellStitch

/-- A place in a text: a line and a character on it, both counted from 0. -/
structure Position where
  line : Nat
  character : Nat
  deriving DecidableEq, Repr, Inhabited

/-- A stretch of a text between two positions. -/
structure Range where
  start : Position
  stop : Position
  deriving DecidableEq, Repr, Inhabited

/-- A range in the text that a URI names. -/
structure Location where
  uri : String
  range : Range
  deriving DecidableEq, Repr, Inhabited

/-! ### Numbers on the wire -/

/-- The largest number that a position may hold. -/
def Position.bound : Int := 2147483647

/-- The position with the given numbers, if both lie between 0 and `Position.bound`. -/
def Position.ofInts? (line character : Int) : Option Position :=
  if 0 ≤ line ∧ line ≤ bound ∧ 0 ≤ character ∧ character ≤ bound then
    some ⟨line.toNat, character.toNat⟩
  else none

/-- A position, if the wire carries it. -/
def Position.onWire? (p : Position) : Option Position := ofInts? p.line p.character

/-- Whether a version number fits the signed 32-bit integers of the wire. -/
def isWireVersion (version : Int) : Bool := -2147483648 ≤ version && version ≤ 2147483647

/-! ### Order -/

/-- The order of positions: by line, then by character. -/
def Position.le (p q : Position) : Prop :=
  p.line < q.line ∨ (p.line = q.line ∧ p.character ≤ q.character)

instance : LE Position := ⟨Position.le⟩

instance (p q : Position) : Decidable (p ≤ q) :=
  inferInstanceAs (Decidable (_ ∨ _))

theorem Position.le_iff {p q : Position} :
    p ≤ q ↔ p.line < q.line ∨ (p.line = q.line ∧ p.character ≤ q.character) :=
  Iff.rfl

/-! ### Printed form -/

/-- A position as `line:character`. -/
def Position.render (p : Position) : String :=
  toString p.line ++ ":" ++ toString p.character

/-- A range as its two positions with a dash between them. -/
def Range.render (r : Range) : String :=
  r.start.render ++ "-" ++ r.stop.render

end CellStitch
