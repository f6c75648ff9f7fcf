import CellStitch.Address.BracketHost
import CellStitch.Toml.Basic
import CellStitch.Value.Numeral
/-!
# TOML: strings and keys

Strings stand between apostrophes, where every character stands for itself, or between quotation
marks, where a backslash begins an escape. Three quotes open a string of several lines; a line break
right behind them does not count, and up to two quotes may stand right before the closing three.

A key is a list of parts with dots between them, each a bare word or a string on one line.
-/

namespace CellStitch.Toml

/-! ### Escapes -/

/-- What a letter behind a backslash stands for. -/
def escaped? : Char → Option Char
  | 'b' => some '\x08'
  | 't' => some '\t'
  | 'n' => some '\n'
  | 'f' => some '\x0c'
  | 'r' => some '\r'
  | '"' => some '"'
  | '\\' => some '\\'
  | _ => none

/-- Takes the number of a character, written with the given number of digits. -/
def takeHex (width : Nat) (s : Text) : Except Fault (Taken s Text) :=
  let digits := s.take width
  let n := Numeral.valueOf 16 digits
  if digits.length = width && digits.all BracketHost.isHexDigit && n.isValidChar then
    match Taken.ofLength? s width [Char.ofNat n] with
    | some x => .ok x
    | none => .error .malformed
  else .error .malformed

/-- Takes what follows a backslash. In a string of several lines, a backslash at the end of a line
joins the lines: it takes the white space and the breaks behind it away. -/
def takeEscape (lines : Bool) : (s : Text) → Except Fault (Taken s Text)
  | [] => .error .malformed
  | c :: t =>
    if lines && isSpaceOrBreak c then
      if ((c :: t).dropWhile isSpace).head? = some '\n' then
        .ok ((Taken.next []).passWhile isSpaceOrBreak)
      else .error .malformed
    else if c = 'u' then do
      let x ← takeHex 4 t
      pure x.behind
    else if c = 'U' then do
      let x ← takeHex 8 t
      pure x.behind
    else
      match escaped? c with
      | some d => .ok (.next [d])
      | none => .error .malformed

/-! ### Strings -/

/-- Takes the characters of a string between quotation marks, up to the mark or marks that close
it. -/
def takeBasic (lines : Bool) (s : Text) : Except Fault (Taken s Text) :=
  match s with
  | [] => .error .malformed
  | c :: t =>
    if c = '"' then
      if lines then
        match t with
        | '"' :: '"' :: _ => .ok (Taken.next []).behind.behind
        | t => do
          let x ← takeBasic lines t
          pure (x.map ('"' :: ·)).behind
      else .ok (.next [])
    else if c = '\\' then do
      let e ← takeEscape lines t
      let x ← takeBasic lines e.rest
      pure (e.andThen (· ++ ·) x).behind
    else if if lines then isForbiddenInLines c else isForbidden c then .error .malformed
    else do
      let x ← takeBasic lines t
      pure (x.map (c :: ·)).behind
termination_by s.length
decreasing_by
  · exact Nat.lt_succ_self _
  · exact Nat.lt_succ_of_lt e.shorter
  · exact Nat.lt_succ_self _

/-- Takes the characters of a string between apostrophes. -/
def takeLiteral (s : Text) : Except Fault (Taken s Text) :=
  match s with
  | [] => .error .malformed
  | c :: t =>
    if c = '\'' then .ok (.next [])
    else if isForbidden c then .error .malformed
    else do
      let x ← takeLiteral t
      pure (x.map (c :: ·)).behind

/-- Takes the characters of a string between three apostrophes on either side. -/
def takeLiteralLines (s : Text) : Except Fault (Taken s Text) :=
  match s with
  | [] => .error .malformed
  | '\'' :: '\'' :: '\'' :: _ => .ok (Taken.next []).behind.behind
  | c :: t =>
    if isForbiddenInLines c then .error .malformed
    else do
      let x ← takeLiteralLines t
      pure (x.map (c :: ·)).behind

/-- A string of several lines without the break right behind its opening quotes. -/
def dropBreak : (s : Text) → Ending s
  | '\n' :: _ => Ending.whole.behind
  | _ => .whole

theorem length_drop_le (n : Nat) (t : Text) : (t.drop n).length ≤ t.length :=
  (List.drop_sublist n t).length_le

/-- Adds the quotes, at most two, that stand behind the closing three. -/
def withQuotes {s : Text} (quote : Char) (x : Taken s Text) : Taken s Text :=
  let n := min 2 (x.rest.takeWhile (· = quote)).length
  ⟨x.value ++ List.replicate n quote, x.rest.drop n,
    Nat.lt_of_le_of_lt (length_drop_le n x.rest) x.shorter⟩

/-- Takes a string with its quotes, if the text begins with one. -/
def takeString? (s : Text) : Option (Except Fault (Taken s Text)) :=
  match s with
  | '"' :: '"' :: '"' :: t => some do
    let start := dropBreak t
    let x ← takeBasic true start.text
    pure ((withQuotes '"' x).widen start.length_le).behind.behind.behind
  | '\'' :: '\'' :: '\'' :: t => some do
    let start := dropBreak t
    let x ← takeLiteralLines start.text
    pure ((withQuotes '\'' x).widen start.length_le).behind.behind.behind
  | '"' :: t => some do
    let x ← takeBasic false t
    pure x.behind
  | '\'' :: t => some do
    let x ← takeLiteral t
    pure x.behind
  | _ => none

/-! ### Keys -/

/-- Whether a character may stand in a bare word. -/
def isBareChar (c : Char) : Bool := c.isAlphanum || c == '-' || c == '_'

/-- Takes a part of a key. -/
def takeKeyPart (s : Text) : Except Fault (Taken s String) :=
  match s with
  | '"' :: t => do
    let x ← takeBasic false t
    pure (x.map String.ofList).behind
  | '\'' :: t => do
    let x ← takeLiteral t
    pure (x.map String.ofList).behind
  | s =>
    let word := s.takeWhile isBareChar
    match Taken.ofLength? s word.length (String.ofList word) with
    | some x => .ok x
    | none => .error .malformed

/-- Takes a key and the white space behind it. -/
def takeKey (s : Text) : Except Fault (Taken s (List String)) := do
  let part ← takeKeyPart s
  let part := part.passWhile isSpace
  match part.before? '.' with
  | some dot =>
    let start := dot.passWhile isSpace
    let more ← takeKey start.rest
    pure (start.andThen (· :: ·) more)
  | none => pure (part.map ([·]))
termination_by s.length
decreasing_by exact start.shorter

end CellStitch.Toml
