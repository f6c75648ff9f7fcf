import CellStitch.Text.Lines
/-!
# Paths

A path is a root and names. Empty names and single dots say nothing and are left out; two dots stay,
because where they lead depends on what the name before them is.
-/

namespace CellStitch

/-- A path to a file or folder. -/
structure Path where
  /-- Nothing for a path from the working folder, and slashes for one from the top. -/
  root : String
  names : List String
  deriving DecidableEq, Repr, Inhabited

namespace Path

/-- The slashes that a path from the top is shown with. Two slashes stay two; any other number of
slashes is one. -/
def rootOf (t : Text) : String :=
  match (t.takeWhile (· = '/')).length with
  | 0 => ""
  | 2 => "//"
  | _ => "/"

/-- Reads a path. -/
def ofString (s : String) : Path :=
  let names := (Text.splitOn '/' s.toList).filter fun name ↦ !name.isEmpty && name ≠ ['.']
  ⟨rootOf s.toList, names.map String.ofList⟩

/-- Whether a path starts at the top. -/
def isAbsolute (p : Path) : Bool := !p.root.isEmpty

/-- Shows a path. The working folder is a dot. -/
def render (p : Path) : String :=
  if p.root.isEmpty && p.names.isEmpty then "." else p.root ++ "/".intercalate p.names

end Path

end CellStitch
