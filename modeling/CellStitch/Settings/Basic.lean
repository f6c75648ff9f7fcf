import CellStitch.Value.Basic
/-!
# Settings

What stays fixed while a document lives: whether lines are annotated, the header, and the language
of the cells it takes. The values are kept as they were given.
-/

namespace CellStitch

/-- The settings of a document. -/
structure Settings where
  /-- If set, no line gets an annotation. -/
  disableMarks : Value
  /-- The header of the document with a given URI. -/
  header : String → Value
  /-- The language of the cells that are taken. -/
  language : Value

namespace Settings

/-- The language of code cells, unless something else is said. -/
def defaultLanguage : String := "python"

/-- Annotated lines, no header, the default language. -/
def default : Settings := ⟨.bool false, fun _ ↦ .text "", .text defaultLanguage⟩

instance : Inhabited Settings := ⟨default⟩

/-- The settings with one and the same header for every document. -/
def withHeader (s : Settings) (v : Value) : Settings := { s with header := fun _ ↦ v }

/-- Whether lines are annotated. -/
def marks (s : Settings) : Bool := !s.disableMarks.isSet

end Settings

end CellStitch
