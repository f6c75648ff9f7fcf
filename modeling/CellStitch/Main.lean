import CellStitch.CommandLine.Run
/-!
# The program

Collects the files that a command line may be about, runs it on them, and prints what comes of it.
-/

namespace CellStitch.Main

/-- The paths that a word of a command line may name, and the folders on the way to each. -/
def pathsIn (word : String) : List Path :=
  let value := String.ofList (Text.cutAt word.toList '=').2
  [word, value].flatMap fun s ↦
    let p := Path.ofString s
    (List.range (p.names.length + 1)).map fun n ↦ ⟨p.root, p.names.take n⟩

/-- The settings files in the folders above a place. -/
def settingsAbove (place : List String) : List Path :=
  (List.range (place.length + 1)).map fun n ↦ ⟨"/", place.take n ++ [SettingsFile.name]⟩

/-- The part of the disk that a command line may be about. -/
def collect (args : List String) : IO FileTree := do
  let here ← IO.currentDir
  let workingFolder := (Path.ofString here.toString).names
  let empty := FileTree.ofFiles workingFolder []
  let named := args.flatMap pathsIn
  let settings := named.flatMap fun p ↦ settingsAbove (empty.resolve p)
  let files ← (named ++ settings).eraseDups.filterMapM fun p ↦ do
    let path := here / p.render
    if ← path.isDir then return some (p.render, none)
    else
      try
        let contents ← IO.FS.readBinFile path
        return some (p.render, some contents)
      catch _ =>
        return none
  return FileTree.ofFiles workingFolder files

end CellStitch.Main

open CellStitch CommandLine in
/-- Runs a command line. -/
def main (args : List String) : IO UInt32 := do
  let tree ← CellStitch.Main.collect args
  match CommandLine.run tree args with
  | .error crash =>
    IO.eprintln crash.message
    return 1
  | .ok output =>
    IO.print output.stdout
    IO.eprint output.stderr
    return output.exitCode.toUInt32
