import CellStitch.Toml.Basic
import CellStitch.Value.Basic
/-!
# TOML: tables

The entries of a table in their order, and the marks that say which names are settled. A name that
was given a list or an inline table is closed: nothing can be put below it later. A name that was
declared, by a header or by a dotted key of an earlier section, cannot be declared again.
-/

namespace CellStitch.Toml

/-- The entries of a table. -/
abbrev Entries := List (String × Value)

namespace Entries

/-- Puts a value in the place of the entry under a key. -/
def replace (es : Entries) (key : String) (v : Value) : Entries :=
  es.map fun e ↦ if e.1 = key then (key, v) else e

/-- Adds an entry under a new key. -/
def add (key : String) (v : Value) (es : Entries) : Except Fault Entries :=
  if (es.lookup key).isSome then .error .malformed else .ok (es ++ [(key, v)])

/-- Adds an empty table to the list of tables under a key. -/
def addTable (key : String) (es : Entries) : Except Fault Entries :=
  match es.lookup key with
  | none => .ok (es ++ [(key, .list [.table []])])
  | some (.list items) => .ok (es.replace key (.list (items ++ [.table []])))
  | some _ => .error .malformed

/-- Changes the table below a path of keys. Tables that are missing on the way are made. Of a list
of tables the last one is meant, if lists may be entered at all. -/
def change (intoLists : Bool) (f : Entries → Except Fault Entries) :
    List String → Entries → Except Fault Entries
  | [], es => f es
  | key :: keys, es =>
    match es.lookup key with
    | none => do
      let inner ← change intoLists f keys []
      pure (es ++ [(key, .table inner)])
    | some (.table inner) => do
      let inner ← change intoLists f keys inner
      pure (es.replace key (.table inner))
    | some (.list items) =>
      match items.getLast? with
      | some (.table inner) =>
        if intoLists then do
          let inner ← change intoLists f keys inner
          pure (es.replace key (.list (items.dropLast ++ [.table inner])))
        else .error .malformed
      | _ => .error .malformed
    | some _ => .error .malformed

end Entries

/-! ### Marks -/

/-- What is settled about a name. -/
inductive MarkKind where
  /-- Nothing can be put below the name. -/
  | closed
  /-- The name cannot be declared again. -/
  | declared
  deriving DecidableEq, Repr

/-- A settled name. A mark that closes a name also closes every name below it. -/
structure Mark where
  path : List String
  kind : MarkKind
  deriving DecidableEq, Repr

/-- The names that are settled. -/
abbrev Marks := List Mark

namespace Marks

/-- Whether a name is closed, by itself or by a name above it. -/
def isClosed (marks : Marks) (path : List String) : Bool :=
  marks.any fun m ↦ m.kind == .closed && m.path.isPrefixOf path

/-- Whether a name is declared. -/
def isDeclared (marks : Marks) (path : List String) : Bool :=
  marks.any fun m ↦ m.kind == .declared && m.path == path

/-- Closes a name if its value is a list or a table. -/
def close (marks : Marks) (path : List String) : Value → Marks
  | .list _ => ⟨path, .closed⟩ :: marks
  | .table _ => ⟨path, .closed⟩ :: marks
  | _ => marks

/-- Forgets all marks at a name and below it. -/
def clear (marks : Marks) (path : List String) : Marks :=
  marks.filter fun m ↦ !path.isPrefixOf m.path

end Marks

end CellStitch.Toml
