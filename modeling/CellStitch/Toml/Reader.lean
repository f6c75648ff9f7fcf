import CellStitch.Toml.Moment
import CellStitch.Toml.Strings
import CellStitch.Toml.Table
/-!
# Reading TOML

A text is read statement by statement: entries, headers of tables, and headers of tables in lists.
Each statement ends with its line. `Toml.read` returns the entries of the whole text.
-/

namespace CellStitch.Toml

/-! ### Scalars -/

/-- The words that stand for values. -/
def words : List (Text × Value) :=
  [("true".toList, .bool true), ("false".toList, .bool false),
    ("inf".toList, .real (.infinite false)), ("nan".toList, .real .notANumber),
    ("+inf".toList, .real (.infinite false)), ("+nan".toList, .real .notANumber),
    ("-inf".toList, .real (.infinite true)), ("-nan".toList, .real .notANumber)]

/-- The bases of whole numbers that begin with a zero and a letter. -/
def bases : List (Char × Nat) := [('x', 16), ('o', 8), ('b', 2)]

/-- Whether a character is a digit in a base. -/
def isDigitIn (base : Nat) (c : Char) : Bool :=
  BracketHost.isHexDigit c && Numeral.digitValue c < base

/-- A whole number in a base other than ten, and the number of its characters. -/
def based? : Text → Option (Value × Nat)
  | '0' :: letter :: t => do
    let base ← bases.lookup letter
    let n := Numeral.runLength true (isDigitIn base) t
    if n = 0 then none else some (.int (Numeral.valueOf base (t.take n)), n + 2)
  | _ => none

/-- The date, time, number or word at the front of a text, and the number of its characters. -/
def scalar (s : Text) : Except Fault (Value × Nat) :=
  match date? s with
  | some true =>
    let n := dateLength s
    .ok (.moment (String.ofList (s.take n)), n)
  | some false => .error .malformed
  | none =>
    let n := timeLength s
    if n ≠ 0 then .ok (.moment (String.ofList (s.take n)), n)
    else
      match based? s with
      | some found => .ok found
      | none =>
        match Numeral.scan ⟨true, true⟩ s with
        | some (numeral, length) =>
          match numeral.toValue? with
          | some v => .ok (v, length)
          | none => .error .numberTooLong
        | none =>
          match words.find? fun w ↦ w.1.isPrefixOf s with
          | some (word, v) => .ok (v, word.length)
          | none => .error .malformed

/-- Takes a scalar. -/
def takeScalar (s : Text) : Except Fault (Taken s Value) := do
  let (v, length) ← scalar s
  match Taken.ofLength? s length v with
  | none => .error .malformed
  | some x => pure x

/-! ### Values -/

/-- Adds an entry to an inline table. -/
def addInline (marks : Marks) (es : Entries) (key : List String) (v : Value) :
    Except Fault Entries :=
  if marks.isClosed key then .error .malformed
  else Entries.change false (Entries.add (key.getLastD "") v) key.dropLast es

mutual

/-- Takes a value. -/
def takeValue (s : Text) : Except Fault (Taken s Value) :=
  match takeString? s with
  | some string => do
    let x ← string
    pure (x.map fun t ↦ .text (String.ofList t))
  | none =>
    match s with
    | '[' :: t => do
      let gap ← skipLines t
      let start := (Taken.next ()).pass gap
      match start.before? ']' with
      | some close => pure (close.map fun _ ↦ .list [])
      | none =>
        let items ← takeItems start.rest
        pure (start.andThen (fun _ vs ↦ .list vs) items)
    | '\x7b' :: t => do
      let start := (Taken.next (s := t) ()).passWhile isSpace
      match start.before? '\x7d' with
      | some close => pure (close.map fun _ ↦ .table [])
      | none =>
        let entries ← takeEntries [] [] start.rest
        pure (start.andThen (fun _ es ↦ .table es) entries)
    | s => takeScalar s
termination_by (s.length, 0)
decreasing_by
  all_goals exact Prod.Lex.left _ _ start.shorter

/-- Takes the items of a list up to its closing bracket. The text begins with an item. -/
def takeItems (s : Text) : Except Fault (Taken s (List Value)) := do
  let x ← takeValue s
  let gap ← skipLines x.rest
  let item := x.pass gap
  match item.before? ']' with
  | some close => pure (close.map ([·]))
  | none =>
    match item.before? ',' with
    | none => .error .malformed
    | some comma =>
      let gap ← skipLines comma.rest
      let start := comma.pass gap
      match start.before? ']' with
      | some close => pure (close.map ([·]))
      | none =>
        let items ← takeItems start.rest
        pure (start.andThen (· :: ·) items)
termination_by (s.length, 1)
decreasing_by
  · exact Prod.Lex.right _ Nat.zero_lt_one
  · exact Prod.Lex.left _ _ start.shorter

/-- Takes the entries of an inline table up to its closing brace. The text begins with a key; the
entries and marks are those of the entries before it. -/
def takeEntries (marks : Marks) (es : Entries) (s : Text) : Except Fault (Taken s Entries) := do
  let key ← takeKey s
  match key.before? '=' with
  | none => .error .malformed
  | some equals =>
    let start := equals.passWhile isSpace
    let x ← takeValue start.rest
    let es ← addInline marks es key.value x.value
    let entry := (start.andThen (fun _ v ↦ v) x).passWhile isSpace
    match entry.before? '\x7d' with
    | some close => pure (close.map fun _ ↦ es)
    | none =>
      match entry.before? ',' with
      | none => .error .malformed
      | some comma =>
        let following := comma.passWhile isSpace
        let more ← takeEntries (marks.close key.value x.value) es following.rest
        pure (following.andThen (fun _ es ↦ es) more)
termination_by (s.length, 1)
decreasing_by
  · exact Prod.Lex.left _ _ start.shorter
  · exact Prod.Lex.left _ _ following.shorter

end

/-! ### Statements -/

/-- What was read so far. -/
structure State where
  entries : Entries
  marks : Marks
  /-- The names that become declared with the next header. -/
  pending : List (List String)
  /-- The table that entries are put into. -/
  current : List String

/-- The paths that lead to a key, without the key itself. -/
def pathsTo (key : List String) : List (List String) :=
  (List.range key.length).drop 1 |>.map fun n ↦ key.take n

/-- Puts a value under a key of the current table. -/
def State.addEntry (state : State) (key : List String) (v : Value) : Except Fault State := do
  let above := (pathsTo key).map (state.current ++ ·)
  let parent := state.current ++ key.dropLast
  if above.any state.marks.isDeclared || state.marks.isClosed parent then .error .malformed
  else
    let entries ← Entries.change true (Entries.add (key.getLastD "") v) parent state.entries
    pure
      { state with
        entries := entries
        marks := state.marks.close (state.current ++ key) v
        pending := above ++ state.pending }

/-- The state at a header: the names that were pending are declared. -/
def State.settle (state : State) : State :=
  { state with
    marks := state.pending.map (⟨·, .declared⟩) ++ state.marks
    pending := [] }

/-- Declares a table, and enters it. -/
def State.openTable (state : State) (key : List String) : Except Fault State := do
  if state.marks.isDeclared key || state.marks.isClosed key then .error .malformed
  else
    let entries ← Entries.change true .ok key state.entries
    pure
      { state with
        entries := entries
        marks := ⟨key, .declared⟩ :: state.marks
        current := key }

/-- Adds a table to a list of tables, and enters it. -/
def State.openListed (state : State) (key : List String) : Except Fault State := do
  if state.marks.isClosed key then .error .malformed
  else
    let entries ←
      Entries.change true (Entries.addTable (key.getLastD "")) key.dropLast state.entries
    pure
      { state with
        entries := entries
        marks := ⟨key, .declared⟩ :: state.marks.clear key
        current := key }

/-- Takes an entry. -/
def takeEntry (state : State) (s : Text) : Except Fault (Taken s State) := do
  let key ← takeKey s
  match key.before? '=' with
  | none => .error .malformed
  | some equals =>
    let start := equals.passWhile isSpace
    let x ← takeValue start.rest
    let state ← state.addEntry key.value x.value
    pure (start.andThen (fun _ _ ↦ state) x)

/-- Takes the header of a table, or of a table in a list. -/
def takeHeader (state : State) (s : Text) : Except Fault (Taken s State) :=
  match s with
  | '[' :: '[' :: t => do
    let start := (Taken.next (s := t) ()).behind.passWhile isSpace
    let key ← takeKey start.rest
    let state ← state.settle.openListed key.value
    match (start.andThen (fun _ _ ↦ state) key).before? ']' >>= Taken.before? ']' with
    | some close => pure close
    | none => .error .malformed
  | '[' :: t => do
    let start := (Taken.next (s := t) ()).passWhile isSpace
    let key ← takeKey start.rest
    let state ← state.settle.openTable key.value
    match (start.andThen (fun _ _ ↦ state) key).before? ']' with
    | some close => pure close
    | none => .error .malformed
  | _ => .error .malformed

/-- Takes one statement, if the line has one. -/
def takeStatement (state : State) (s : Text) : Except Fault (State × Ending s) :=
  match s with
  | [] => .ok (state, .whole)
  | c :: t =>
    if isBareChar c || c = '"' || c = '\'' then do
      let x ← takeEntry state (c :: t)
      pure (x.value, (x.passWhile isSpace).ending)
    else if c = '[' then do
      let x ← takeHeader state (c :: t)
      pure (x.value, (x.passWhile isSpace).ending)
    else if c = '\n' || c = '#' then .ok (state, .whole)
    else .error .malformed

/-- Reads the lines of a text. -/
def readLines (state : State) (s : Text) : Except Fault State := do
  let start := Ending.afterWhile (s := s) isSpace
  let (state, statement) ← takeStatement state start.text
  let comment ← skipComment statement.text
  let line := (start.trans statement).trans comment
  if line.text = [] then pure state
  else
    match line.take? '\n' with
    | some lineBreak => readLines state lineBreak.rest
    | none => .error .malformed
termination_by s.length
decreasing_by exact lineBreak.shorter

/-- Reads a text as the entries of a table. -/
def read (t : Text) : Except Fault Entries := do
  let state ← readLines ⟨[], [], [], []⟩ (joinBreaks t)
  pure state.entries

end CellStitch.Toml
