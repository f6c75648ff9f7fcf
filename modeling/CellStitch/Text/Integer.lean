import CellStitch.Text.Blank
/-!
# Integers in writing

An integer is a sign and decimal digits of any script, with white space around them. An underscore
may stand between two digits. Zeros in front do not matter.
-/

namespace CellStitch.Text

/-- The zeros of the scripts that have decimal digits; the other nine follow each of them. -/
def zeros : List Nat :=
  [0x30, 0x660, 0x6F0, 0x7C0, 0x966, 0x9E6, 0xA66, 0xAE6, 0xB66, 0xBE6, 0xC66, 0xCE6, 0xD66, 0xDE6,
    0xE50, 0xED0, 0xF20, 0x1040, 0x1090, 0x17E0, 0x1810, 0x1946, 0x19D0, 0x1A80, 0x1A90, 0x1B50,
    0x1BB0, 0x1C40, 0x1C50, 0xA620, 0xA8D0, 0xA900, 0xA9D0, 0xA9F0, 0xAA50, 0xABF0, 0xFF10, 0x104A0,
    0x10D30, 0x11066, 0x110F0, 0x11136, 0x111D0, 0x112F0, 0x11450, 0x114D0, 0x11650, 0x116C0,
    0x11730, 0x118E0, 0x11950, 0x11C50, 0x11D50, 0x11DA0, 0x16A60, 0x16AC0, 0x16B50, 0x1D7CE,
    0x1D7D8, 0x1D7E2, 0x1D7EC, 0x1D7F6, 0x1E140, 0x1E2F0, 0x1E950, 0x1FBF0]

/-- The value of a decimal digit. -/
def digit? (c : Char) : Option Nat :=
  (zeros.find? fun z ↦ z ≤ c.toNat && c.toNat < z + 10).map fun z ↦ c.toNat - z

/-- Whether a character may stand around an integer: a blank, but no information separator. -/
def isPadding (c : Char) : Bool := CellStitch.isBlank c && (c.toNat < 0x1C || 0x20 ≤ c.toNat)

/-- The digits of a number, where an underscore may stand between two of them. -/
def digits? : Text → Option (List Nat)
  | [] => none
  | [c] => (digit? c).map ([·])
  | c :: d :: t =>
    match digit? c with
    | none => none
    | some n => if d = '_' then (digits? t).map (n :: ·) else (digits? (d :: t)).map (n :: ·)

/-- The number of digits beyond which an integer is refused. -/
def maxDigits : Nat := 4300

/-- The number that digits stand for. -/
def size? (t : Text) : Option Nat := do
  let digits ← digits? t
  if digits.length ≤ maxDigits then some (digits.foldl (fun n d ↦ 10 * n + d) 0) else none

/-- Reads a text as an integer. -/
def integer? (t : Text) : Option Int :=
  match ((t.dropWhile isPadding).reverse.dropWhile isPadding).reverse with
  | '+' :: t => (size? t).map Int.ofNat
  | '-' :: t => (size? t).map fun n ↦ -Int.ofNat n
  | t => (size? t).map Int.ofNat

end CellStitch.Text
