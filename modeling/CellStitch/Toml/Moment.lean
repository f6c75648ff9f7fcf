import CellStitch.Text.Lines
import CellStitch.Value.Numeral
/-!
# TOML: dates and times

A date, a time, or a date and a time with a letter or a blank between them, and perhaps the distance
from world time. The functions count characters: 0 says that the text does not begin with what is
looked for.
-/

namespace CellStitch.Toml

/-- Whether two characters are a number from `low` to `high`. -/
def isPair (low high : Nat) (a b : Char) : Bool :=
  let n := Numeral.valueOf 10 [a, b]
  a.isDigit && b.isDigit && low ≤ n && n ≤ high

/-- The length of a time: hours, minutes, seconds, and perhaps a fraction. -/
def timeLength : Text → Nat
  | h₁ :: h₂ :: ':' :: m₁ :: m₂ :: ':' :: s₁ :: s₂ :: t =>
    if isPair 0 23 h₁ h₂ && isPair 0 59 m₁ m₂ && isPair 0 59 s₁ s₂ then
      8 +
        match t with
        | '.' :: t =>
          let n := (t.takeWhile Char.isDigit).length
          if n = 0 then 0 else n + 1
        | _ => 0
    else 0
  | _ => 0

/-- The length of a distance from world time. -/
def zoneLength : Text → Nat
  | 'Z' :: _ => 1
  | 'z' :: _ => 1
  | sign :: h₁ :: h₂ :: ':' :: m₁ :: m₂ :: _ =>
    if (sign = '+' || sign = '-') && isPair 0 23 h₁ h₂ && isPair 0 59 m₁ m₂ then 6 else 0
  | _ => 0

/-- The number of days of a month. -/
def daysIn (year month : Nat) : Nat :=
  if month = 2 then
    if year % 4 = 0 ∧ (year % 100 ≠ 0 ∨ year % 400 = 0) then 29 else 28
  else if month = 4 ∨ month = 6 ∨ month = 9 ∨ month = 11 then 30
  else 31

/-- Whether a text begins with the form of a date; and if so, whether there is such a day. -/
def date? : Text → Option Bool
  | y₁ :: y₂ :: y₃ :: y₄ :: '-' :: m₁ :: m₂ :: '-' :: d₁ :: d₂ :: _ =>
    if [y₁, y₂, y₃, y₄].all Char.isDigit && isPair 1 12 m₁ m₂ && isPair 1 31 d₁ d₂ then
      let year := Numeral.valueOf 10 [y₁, y₂, y₃, y₄]
      some (1 ≤ year && Numeral.valueOf 10 [d₁, d₂] ≤ daysIn year (Numeral.valueOf 10 [m₁, m₂]))
    else none
  | _ => none

/-- The length of a date, with the time that may follow it. -/
def dateLength (t : Text) : Nat :=
  let rest := t.drop 10
  match rest with
  | c :: rest =>
    let n := timeLength rest
    if (c = 'T' || c = 't' || c = ' ') && n ≠ 0 then 11 + n + zoneLength (rest.drop n) else 10
  | [] => 10

end CellStitch.Toml
