import CellStitch.Value.Basic
/-!
# Numerals

Numbers in data files: a sign, digits without leading zeros, and perhaps a fraction and an exponent.
Some formats let an underscore stand between two digits, and a plus sign in front.
-/

namespace CellStitch

/-- How a format writes numbers. -/
structure NumeralStyle where
  /-- Whether an underscore may stand between two digits. -/
  separated : Bool
  /-- Whether a plus sign may stand in front. -/
  plusSign : Bool

/-- A number as it is written. -/
structure Numeral where
  negative : Bool
  /-- The digits before the point. -/
  whole : Text
  /-- The digits behind the point. -/
  fraction : Text
  /-- The exponent, if one is written. -/
  exponent : Option Int
  deriving Repr

namespace Numeral

/-- The number of characters that a run of digits goes on for behind its first digit. -/
def runTail (separated : Bool) (ok : Char → Bool) : Text → Nat
  | [] => 0
  | [c] => if ok c then 1 else 0
  | c :: d :: t =>
    if ok c then runTail separated ok (d :: t) + 1
    else if separated && c == '_' && ok d then runTail separated ok t + 2
    else 0

/-- The number of characters of a run of digits at the front of a text. -/
def runLength (separated : Bool) (ok : Char → Bool) : Text → Nat
  | [] => 0
  | c :: t => if ok c then runTail separated ok t + 1 else 0

/-- The value of a digit in a base up to 16. -/
def digitValue (c : Char) : Nat :=
  if c.isDigit then c.toNat - '0'.toNat
  else if 'a' ≤ c then c.toNat - 'a'.toNat + 10
  else c.toNat - 'A'.toNat + 10

/-- The number that digits stand for. Underscores do not count. -/
def valueOf (base : Nat) (digits : Text) : Nat :=
  (digits.filter (· ≠ '_')).foldl (fun n c ↦ base * n + digitValue c) 0

/-- The number of characters of a sign at the front of a text. -/
def signLength (plusSign : Bool) : Text → Nat
  | '-' :: _ => 1
  | '+' :: _ => if plusSign then 1 else 0
  | _ => 0

/-- The number of characters of the digits before the point: a lone zero, or digits that do not
begin with one. -/
def wholeLength (separated : Bool) : Text → Nat
  | '0' :: _ => 1
  | t => runLength separated Char.isDigit t

/-- The number of characters of a fraction with its point. -/
def fractionLength (separated : Bool) : Text → Nat
  | '.' :: t =>
    let n := runLength separated Char.isDigit t
    if n = 0 then 0 else n + 1
  | _ => 0

/-- The number of characters of an exponent with its letter and its sign. -/
def exponentLength (separated : Bool) : Text → Nat
  | c :: t =>
    if c = 'e' || c = 'E' then
      let sign := signLength true t
      let n := runLength separated Char.isDigit (t.drop sign)
      if n = 0 then 0 else n + sign + 1
    else 0
  | [] => 0

/-- The number that an exponent stands for, given what follows its letter. -/
def exponentValue : Text → Int
  | '-' :: t => -(valueOf 10 t : Int)
  | '+' :: t => valueOf 10 t
  | t => valueOf 10 t

/-- The numeral at the front of a text and the number of its characters. -/
def scan (style : NumeralStyle) (s : Text) : Option (Numeral × Nat) :=
  let sign := signLength style.plusSign s
  let body := s.drop sign
  let whole := wholeLength style.separated body
  let fraction := fractionLength style.separated (body.drop whole)
  let exponent := exponentLength style.separated (body.drop (whole + fraction))
  if whole = 0 then none
  else
    some
      ({ negative := s.head? == some '-'
         whole := body.take whole
         fraction := ((body.drop whole).take fraction).drop 1
         exponent :=
          if exponent = 0 then none
          else some (exponentValue (((body.drop (whole + fraction)).take exponent).drop 1)) },
        sign + whole + fraction + exponent)

/-- The number of digits beyond which a whole number is refused. -/
def maxDigits : Nat := 4300

/-- Whether a numeral has neither a fraction nor an exponent. -/
def isWhole (n : Numeral) : Bool := n.fraction.isEmpty && n.exponent.isNone

/-- The value of a numeral. There is none for a whole number with more than `maxDigits` digits. -/
def toValue? (n : Numeral) : Option Value :=
  if n.isWhole then
    if maxDigits < (n.whole.filter (· ≠ '_')).length then none
    else
      let size : Int := valueOf 10 n.whole
      some (.int (if n.negative then -size else size))
  else
    let digits := valueOf 10 (n.whole ++ n.fraction)
    let places := (n.fraction.filter (· ≠ '_')).length
    some (.real (.finite n.negative digits (n.exponent.getD 0 - places)))

end Numeral

end CellStitch
