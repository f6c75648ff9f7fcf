import CellStitch.Address.BracketHost
import CellStitch.Text.Taken
import CellStitch.Value.Numeral
/-!
# Reading JSON

A text is read as one JSON value with white space around it. Beyond the standard, `NaN`, `Infinity`
and `-Infinity` are numbers. Objects keep all their entries in order; `Value.entry?` takes the last
of several with one key.

Readers of JSON differ in two things. Texts are made of characters here, and half of a surrogate
pair is none: where another reader keeps a half that is escaped alone, this one refuses it with a
fault of its own (`Fault.loneSurrogate`). The shape of such a text can still be read, with a
character put in the place of each half (`readWith`). And lists and objects may stand inside one
another to any depth, where a reader that keeps its place on a stack gives up on some thousand of
them.
-/

namespace CellStitch.Json

/-- Why a text is not read. -/
inductive Fault where
  /-- The text is not JSON. -/
  | malformed
  /-- A whole number has too many digits. -/
  | numberTooLong
  /-- A string has half of a surrogate pair, which no text here can hold. -/
  | loneSurrogate
  deriving DecidableEq, Repr

/-! ### White space -/

/-- Whether a character may stand between the parts of a value. -/
def isSpace (c : Char) : Bool := c == ' ' || c == '\t' || c == '\n' || c == '\r'

/-- A text without the white space it begins with. -/
def skip (t : Text) : Text := t.dropWhile isSpace

/-! ### Strings -/

/-- What a letter behind a backslash stands for. -/
def escaped? : Char → Option Nat
  | '"' => some 0x22
  | '\\' => some 0x5C
  | '/' => some 0x2F
  | 'b' => some 0x08
  | 'f' => some 0x0C
  | 'n' => some 0x0A
  | 'r' => some 0x0D
  | 't' => some 0x09
  | _ => none

/-- Takes the number of one character of a string, which may be half of a surrogate pair. Control
characters must be escaped. -/
def takeUnit : (s : Text) → Option (Taken s Nat)
  | [] => none
  | c :: rest =>
    if c = '\\' then
      match rest with
      | [] => none
      | e :: rest =>
        if e = 'u' then
          let digits := rest.take 4
          if digits.length = 4 && digits.all BracketHost.isHexDigit then
            (Taken.ofLength? rest 4 (Numeral.valueOf 16 digits)).map fun x ↦ x.behind.behind
          else none
        else (escaped? e).map fun n ↦ (Taken.next n).behind
    else if c.toNat < 0x20 then none
    else some (.next c.toNat)

section Lone

-- what half of a surrogate pair is read as, if it is read at all
variable (lone : Option Char)

/-- The character with a number, which half of a surrogate pair has not. -/
def char? (n : Nat) : Option Char := if n.isValidChar then some (Char.ofNat n) else lone

/-- The characters of numbers, where a high surrogate and a low one behind it are one character. -/
def joinSurrogates? : List Nat → Option Text
  | [] => some []
  | [n] => (char? lone n).map ([·])
  | high :: low :: rest =>
    if 0xD800 ≤ high && high < 0xDC00 && 0xDC00 ≤ low && low < 0xE000 then
      let joined := Char.ofNat (0x10000 + (high - 0xD800) * 0x400 + (low - 0xDC00))
      (joinSurrogates? rest).map (joined :: ·)
    else do
      let c ← char? lone high
      let t ← joinSurrogates? (low :: rest)
      pure (c :: t)

end Lone

/-- Takes the numbers of the characters of a string up to its closing quote. -/
def takeUnits (s : Text) : Option (Taken s (List Nat)) :=
  match s with
  | [] => none
  | '"' :: _ => some (.next [])
  | c :: t =>
    match takeUnit (c :: t) with
    | none => none
    | some unit =>
      match takeUnits unit.rest with
      | none => none
      | some units => some (unit.andThen (· :: ·) units)
termination_by s.length
decreasing_by exact unit.shorter

/-- Takes a string whose opening quote was taken before. -/
def takeString (lone : Option Char) (s : Text) : Except Fault (Taken s String) :=
  match takeUnits s with
  | none => .error .malformed
  | some units =>
    match joinSurrogates? lone units.value with
    | none => .error .loneSurrogate
    | some t => .ok (units.map fun _ ↦ String.ofList t)

/-! ### Constants and numbers -/

/-- The words that stand for values. -/
def words : List (Text × Value) :=
  [("null".toList, .null), ("true".toList, .bool true), ("false".toList, .bool false),
    ("NaN".toList, .real .notANumber), ("Infinity".toList, .real (.infinite false)),
    ("-Infinity".toList, .real (.infinite true))]

/-- The word or number at the front of a text, and the number of its characters. -/
def scalar (s : Text) : Except Fault (Value × Nat) :=
  match words.find? fun w ↦ w.1.isPrefixOf s with
  | some (word, value) => .ok (value, word.length)
  | none =>
    match Numeral.scan ⟨false, false⟩ s with
    | none => .error .malformed
    | some (numeral, length) =>
      match numeral.toValue? with
      | none => .error .numberTooLong
      | some value => .ok (value, length)

/-- Takes a word or a number. -/
def takeScalar (s : Text) : Except Fault (Taken s Value) := do
  let (value, length) ← scalar s
  match Taken.ofLength? s length value with
  | none => .error .malformed
  | some x => pure x

/-! ### Values -/

section Values

variable (lone : Option Char)

mutual

/-- Takes a value. -/
def takeValue (s : Text) : Except Fault (Taken s Value) :=
  match s with
  | '"' :: t => do
    let x ← takeString lone t
    pure (x.map Value.text).behind
  | '[' :: t => do
    let start := (Taken.next (s := t) ()).passWhile isSpace
    match start.before? ']' with
    | some close => pure (close.map fun _ ↦ .list [])
    | none =>
      let items ← takeItems start.rest
      pure (start.andThen (fun _ vs ↦ .list vs) items)
  | '\x7b' :: t => do
    let start := (Taken.next (s := t) ()).passWhile isSpace
    match start.before? '\x7d' with
    | some close => pure (close.map fun _ ↦ .table [])
    | none =>
      let entries ← takeEntries start.rest
      pure (start.andThen (fun _ es ↦ .table es) entries)
  | s => takeScalar s
termination_by (s.length, 0)
decreasing_by
  all_goals exact Prod.Lex.left _ _ start.shorter

/-- Takes the items of a list up to its closing bracket. -/
def takeItems (s : Text) : Except Fault (Taken s (List Value)) := do
  let x ← takeValue s
  let item := x.passWhile isSpace
  match item.before? ']' with
  | some close => pure (close.map ([·]))
  | none =>
    match item.before? ',' with
    | none => .error .malformed
    | some comma =>
      let start := comma.passWhile isSpace
      let items ← takeItems start.rest
      pure (start.andThen (· :: ·) items)
termination_by (s.length, 1)
decreasing_by
  · exact Prod.Lex.right _ Nat.zero_lt_one
  · exact Prod.Lex.left _ _ start.shorter

/-- Takes the entries of an object up to its closing brace. -/
def takeEntries (s : Text) : Except Fault (Taken s (List (String × Value))) :=
  match s with
  | '"' :: t => do
    let key ← takeString lone t
    match (key.passWhile isSpace).before? ':' with
    | none => .error .malformed
    | some colon =>
      let start := colon.behind.passWhile isSpace
      let x ← takeValue start.rest
      let entry := (start.andThen (fun name v ↦ (name, v)) x).passWhile isSpace
      match entry.before? '\x7d' with
      | some close => pure (close.map ([·]))
      | none =>
        match entry.before? ',' with
        | none => .error .malformed
        | some comma =>
          let following := comma.passWhile isSpace
          let entries ← takeEntries following.rest
          pure (following.andThen (· :: ·) entries)
  | _ => .error .malformed
termination_by (s.length, 1)
decreasing_by
  · exact Prod.Lex.left _ _ start.shorter
  · exact Prod.Lex.left _ _ following.shorter

end

/-- Reads a text as one value, with a character for each half of a surrogate pair that is alone. -/
def readWith (t : Text) : Except Fault Value := do
  let x ← takeValue lone (skip t)
  if (skip x.rest).isEmpty then pure x.value else .error .malformed

end Values

/-- Reads a text as one value. -/
def read (t : Text) : Except Fault Value := readWith none t

end CellStitch.Json
