import CellStitch.Text.Lines
/-!
# Paths with slashes

A path is cut behind its last slash into a folder and a name. The folder loses the slashes it ends
with, unless it is nothing but slashes.
-/

namespace CellStitch.SlashPath

/-- What stands behind the last slash. -/
def name (path : Text) : Text := (path.reverse.takeWhile (· ≠ '/')).reverse

/-- What stands before the name, without the slashes at its end; a folder of slashes alone stays. -/
def folder (path : Text) : Text :=
  let front := path.reverse.dropWhile (· ≠ '/')
  let trimmed := front.dropWhile (· = '/')
  (if trimmed.isEmpty then front else trimmed).reverse

/-- Puts a name into a folder. -/
def join (folder name : Text) : Text :=
  if folder.isEmpty || folder.endsWith '/' then folder ++ name else folder ++ '/' :: name

end CellStitch.SlashPath
