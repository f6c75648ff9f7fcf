import CellStitch.Text.Quoted
import CellStitch.Value.Basic
/-!
# Values in writing

The written form of a value in a message: quoted texts, lists in brackets and tables in braces, with
`None`, `True` and `False` for the constants.
-/

namespace CellStitch

/-- The written form of `digits * 10 ^ exponent`. The point is moved to its place unless that takes
more than sixteen digits before it, or more than three zeros behind it. -/
def RealLiteral.ofDecimal (digits : Nat) (exponent : Int) : Text :=
  let all := Nat.toDigits 10 digits
  let shown := (all.reverse.dropWhile (· = '0')).reverse
  let shown := if shown.isEmpty then ['0'] else shown
  let point : Int := if digits = 0 then 1 else all.length + exponent
  if -3 ≤ point ∧ point ≤ 16 then
    if point ≤ 0 then "0.".toList ++ List.replicate point.natAbs '0' ++ shown
    else
      let whole := shown.take point.toNat
      let rest := shown.drop point.toNat
      whole ++ List.replicate (point.toNat - whole.length) '0' ++ '.' ::
        (if rest.isEmpty then ['0'] else rest)
  else
    let power := point - 1
    let tail := shown.drop 1
    let size := Nat.toDigits 10 power.natAbs
    shown.take 1 ++ (if tail.isEmpty then [] else '.' :: tail) ++ 'e' ::
      (if power < 0 then '-' else '+') :: (if size.length < 2 then '0' :: size else size)

/-- A number in double precision, with the fewest digits that tell it from other numbers. -/
def RealLiteral.literal : RealLiteral → String
  | infinite negative => if negative then "-inf" else "inf"
  | notANumber => "nan"
  | finite negative digits exponent =>
    let size :=
      match Double.nearest? digits exponent with
      | none => "inf".toList
      | some x =>
        let (digits, exponent) := if x = .zero then (0, 0) else x.shortest
        ofDecimal digits exponent
    String.ofList (if negative then '-' :: size else size)

namespace Value

/-- A text in quotes. -/
def quoted (s : String) : String := String.ofList (Quoted.encode s.toList)

/-- The written form of a value. -/
def literal : Value → String
  | null => "None"
  | bool b => if b then "True" else "False"
  | int n => toString n
  | real r => r.literal
  | text s => quoted s
  | moment s => s
  | list items => "[" ++ ", ".intercalate (items.attach.map fun ⟨v, _⟩ ↦ v.literal) ++ "]"
  | table entries =>
    "\x7b" ++ ", ".intercalate (entries.attach.map fun ⟨(k, v), _⟩ ↦ quoted k ++ ": " ++ v.literal)
      ++ "\x7d"
termination_by v => sizeOf v
decreasing_by
  · have := List.sizeOf_lt_of_mem ‹_ ∈ items›
    simp only [list.sizeOf_spec]
    omega
  · have := List.sizeOf_lt_of_mem ‹_ ∈ entries›
    simp only [table.sizeOf_spec, Prod.mk.sizeOf_spec] at this ⊢
    omega

/-- The number of characters of a written value that a message shows. -/
def shownWidth : Nat := 100

/-- The written form of a value for a message; what is longer than `shownWidth` is cut off, and
three dots mark the cut. -/
def shown (v : Value) : String :=
  let t := v.literal.toList
  if shownWidth < t.length then String.ofList (t.take shownWidth) ++ "..." else String.ofList t

end Value

end CellStitch
