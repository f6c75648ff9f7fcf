/-!
# Numbers of double precision

A nonnegative number of double precision is `mantissa * 2 ^ exponent`. A decimal number is rounded
to the nearest one (`Double.nearest?`), and a number of double precision is written with the fewest
digits that are rounded back to it (`Double.shortest`). Everything is computed with whole numbers.
-/

namespace CellStitch

/-- A nonnegative number `mantissa * 2 ^ exponent`. The mantissa takes all of 53 bits unless the
exponent is as small as it can be, so that each number is written in one way. -/
structure Double where
  mantissa : Nat
  exponent : Int
  deriving DecidableEq, Repr

/-- A fraction of whole numbers. -/
structure Ratio where
  above : Nat
  below : Nat

namespace Ratio

/-- A whole number times a power of a base. -/
def scaled (n base : Nat) (exponent : Int) : Ratio :=
  if 0 ≤ exponent then ⟨n * Nat.pow base exponent.natAbs, 1⟩
  else ⟨n, Nat.pow base exponent.natAbs⟩

/-- A fraction times a power of a base. -/
def scale (q : Ratio) (base : Nat) (exponent : Int) : Ratio :=
  let p := scaled 1 base exponent
  ⟨q.above * p.above, q.below * p.below⟩

/-- The largest whole number that is not above a fraction. -/
def floor (q : Ratio) : Nat := q.above / q.below

/-- How what a fraction has beyond its floor compares with one half. -/
def compareHalf (q : Ratio) : Ordering := compare (2 * (q.above % q.below)) q.below

/-- The whole number nearest to a fraction, and the even one of two that are as near. -/
def round (q : Ratio) : Nat :=
  match q.compareHalf with
  | .lt => q.floor
  | .eq => q.floor + q.floor % 2
  | .gt => q.floor + 1

end Ratio

namespace Double

/-- The number of bits of a mantissa. -/
def bits : Nat := 53

/-- The smallest exponent. -/
def minExponent : Int := -1074

/-- The largest exponent. -/
def maxExponent : Int := 971

/-- The number zero. -/
def zero : Double := ⟨0, minExponent⟩

/-- The number nearest to a fraction, if it is not too large. The exponent is first guessed from the
sizes of the two parts, and the guess is at most one too small. -/
def ofRatio? (q : Ratio) : Option Double :=
  let guess : Int := (q.above.log2 : Int) - q.below.log2 - bits
  let exponent := max minExponent <|
    if (q.scale 2 (-guess)).floor < Nat.pow 2 bits then guess else guess + 1
  let mantissa := (q.scale 2 (-exponent)).round
  let x : Double :=
    if mantissa < Nat.pow 2 bits then ⟨mantissa, exponent⟩ else ⟨mantissa / 2, exponent + 1⟩
  if maxExponent < x.exponent then none else some x

/-- The number nearest to `digits * 10 ^ exponent`, if it is not too large. Sizes of `10 ^ 310` and
more are too large, and sizes below `10 ^ (-330)` are rounded to zero. -/
def nearest? (digits : Nat) (exponent : Int) : Option Double :=
  let size : Int := (Nat.toDigits 10 digits).length + exponent
  if digits = 0 || size < -330 then some zero
  else if 310 < size then none
  else ofRatio? (.scaled digits 10 exponent)

/-- The fraction that a number is. -/
def toRatio (x : Double) : Ratio := .scaled x.mantissa 2 x.exponent

/-- The number of decimal places before the point, which is negative when zeros follow the point.
No number but zero is below `10 ^ (-400)`. -/
def places (x : Double) : Int := (Nat.toDigits 10 (x.toRatio.scale 10 400).floor).length - 400

/-- The decimal number with as many digits as given that is rounded to a number, if there is one.
Of two, the one nearer to the number is taken. -/
def withDigits? (x : Double) (count : Nat) : Option (Nat × Int) :=
  let exponent := x.places - count
  let q := x.toRatio.scale 10 (-exponent)
  let lower := q.floor
  let fits (digits : Nat) : Bool := nearest? digits exponent == some x
  let closer := q.round
  let other := if closer = lower then lower + 1 else lower
  if fits closer then some (closer, exponent)
  else if fits other then some (other, exponent)
  else none

/-- The decimal number with the fewest digits that is rounded to a number. Seventeen digits are
always enough. -/
def shortest (x : Double) : Nat × Int :=
  ((List.range' 1 17).findSome? x.withDigits?).getD (0, 0)

end Double

end CellStitch
