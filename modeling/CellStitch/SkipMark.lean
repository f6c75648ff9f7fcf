import CellStitch.Text.Blank
/-!
# Annotated lines

Magics, shell escapes and top-level `await` are not plain module code. A line of one of these kinds
gets an annotation at its end that tells a type checker to skip it; every column of the line stays
where it is.
-/

namespace CellStitch

/-- What is put at the end of a line that a type checker should skip. -/
def skipMark : Text := " # type: ignore".toList

/-- Whether a text is the keyword `await`, at least one blank, and an operand. An `await` with
nothing but blanks behind it is left alone. -/
def isAwait (t : Text) : Bool :=
  "await".toList.isPrefixOf t &&
    match t.drop "await".length with
    | [] => false
    | c :: rest => isBlank c && !Text.isBlank rest

/-- Whether a line gets the annotation: behind its leading blanks it is a magic (`%`), a shell
escape (`!`) or an `await` with an operand. -/
def needsSkipMark (line : Text) : Bool :=
  match line.trimLeft with
  | [] => false
  | '%' :: _ => true
  | '!' :: _ => true
  | t => isAwait t

end CellStitch
