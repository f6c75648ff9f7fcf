import CellStitch.Files.Path
/-!
# File trees

The files that the program sees: a tree of folders and files, and a working folder in it. There are
no links, so a path can be resolved by its names alone (`FileTree.resolve`); but a path is only
followed (`FileTree.follow`) through folders that exist.

A place in the tree is the list of the names that lead to it from the top.
-/

namespace CellStitch

/-- What stands at a place in a file tree. -/
inductive FileNode where
  | folder
  | file (contents : ByteArray)

/-- Why a file cannot be read. -/
inductive FileFault where
  | notFound
  | isAFolder
  /-- Something on the way to the file is not a folder. -/
  | notAFolder
  /-- The path has a NUL in it, and can name nothing. -/
  | unusableName
  deriving DecidableEq, Repr

/-- The wording of a fault. -/
def FileFault.message : FileFault → String
  | notFound => "no such file"
  | isAFolder => "this is a folder"
  | notAFolder => "a name on the way is not a folder"
  | unusableName => "a name has a NUL in it"

/-- Files and folders, and a working folder. -/
structure FileTree where
  workingFolder : List String
  /-- What stands where. Folders on the way to a listed place need not be listed. -/
  nodes : List (List String × FileNode)

/-- Checks that a path can name something. -/
def Path.check (p : Path) : Except FileFault Unit :=
  if p.names.any fun name ↦ name.toList.contains '\x00' then .error .unusableName else .ok ()

namespace FileTree

/-- What stands at a place. -/
def node? (t : FileTree) (place : List String) : Option FileNode :=
  match t.nodes.lookup place with
  | some node => some node
  | none =>
    if place.isPrefixOf t.workingFolder || t.nodes.any fun entry ↦ place.isPrefixOf entry.1 then
      some .folder
    else none

/-- Follows names from a place. Two dots lead up, and an empty name or a single dot stays; all names
must be looked up in folders. -/
def follow (t : FileTree) (place : List String) : List String → Except FileFault (List String)
  | [] => .ok place
  | name :: names =>
    match t.node? place with
    | none => .error .notFound
    | some (.file _) => .error .notAFolder
    | some .folder =>
      if name = "" ∨ name = "." then t.follow place names
      else if name = ".." then t.follow place.dropLast names
      else
        match t.node? (place ++ [name]) with
        | none => .error .notFound
        | some _ => t.follow (place ++ [name]) names

/-- Where a path starts. -/
def startOf (t : FileTree) (isAbsolute : Bool) : List String :=
  if isAbsolute then [] else t.workingFolder

/-- The place that a text names, with every slash of it counting. -/
def locate (t : FileTree) (s : String) : Except FileFault (List String) :=
  let chars := s.toList
  if chars.contains '\x00' then .error .unusableName
  else if chars.isEmpty then .error .notFound
  else
    t.follow (t.startOf (chars.head? == some '/')) ((Text.splitOn '/' chars).map String.ofList)

/-- Whether a text names a file. There is no answer for a text that can name nothing. -/
def isFile? (t : FileTree) (s : String) : Option Bool :=
  match t.locate s with
  | .error .unusableName => none
  | .error _ => some false
  | .ok place =>
    match t.node? place with
    | some (.file _) => some true
    | _ => some false

/-- The contents of a file. -/
def read (t : FileTree) (p : Path) : Except FileFault ByteArray := do
  p.check
  let place ← t.follow (t.startOf p.isAbsolute) p.names
  match t.node? place with
  | none => .error .notFound
  | some .folder => .error .isAFolder
  | some (.file contents) => .ok contents

/-- The place that a path names, whether or not something stands there. -/
def resolve (t : FileTree) (p : Path) : List String :=
  p.names.foldl (fun place name ↦ if name = ".." then place.dropLast else place ++ [name])
    (t.startOf p.isAbsolute)

/-- Shows a place as a path from the top. -/
def render (place : List String) : String := "/" ++ "/".intercalate place

/-- The tree with the given files, named by paths from the working folder; a path without contents
is a folder. -/
def ofFiles (workingFolder : List String) (files : List (String × Option ByteArray)) : FileTree :=
  let empty : FileTree := ⟨workingFolder, []⟩
  { empty with
    nodes := files.map fun (path, contents) ↦
      (empty.resolve (.ofString path),
        match contents with
        | none => .folder
        | some bytes => .file bytes) }

end FileTree

end CellStitch
