import CellStitch.Position
/-!
# Causes of failure

Every way in which an operation on cells, documents and workspaces can fail, and the wording of
each. The reading of files has causes of its own.
-/

namespace CellStitch

/-- Why an operation on cells or documents failed. -/
inductive Failure where
  /-- A line was asked for that the text does not have. -/
  | lineOutOfRange (line : Int) (count : Nat)
  /-- A query named a cell that the document does not hold. -/
  | cellNotFound (uri : String)
  /-- An edit named a cell that is not open. -/
  | cellNotOpen (uri : String)
  /-- An edit by offsets does not fit the text of its cell. -/
  | editOutOfRange (start stop : Int) (length : Nat)
  /-- The range of an edit ends before it starts. -/
  | invertedEdit (range : Range) (uri : String)
  /-- An offset was mapped through an empty list of spans. -/
  | noSpans
  /-- A URI names a host in brackets that is no address. -/
  | malformedUri (uri : String)
  /-- The header of a document is set, but not a text. -/
  | headerNotText
  /-- A position has a number that no position may have. -/
  | positionOutOfRange
  /-- A version does not fit the wire. -/
  | versionOutOfRange
  /-- A message arrived that tells nothing about a cell. -/
  | unsupportedMessage (kind : String)
  /-- A value arrived in place of an event. -/
  | notAnEvent (shown : String)
  deriving DecidableEq, Repr

/-- The wording of a failure. -/
def Failure.message : Failure → String
  | lineOutOfRange line count =>
    "line " ++ toString line ++ " is out of range [0, " ++ toString count ++ ")"
  | cellNotFound uri => "cell '" ++ uri ++ "' is not open in this document"
  | cellNotOpen uri => "cell '" ++ uri ++ "' is not open"
  | editOutOfRange start stop length =>
    "invalid edit range [" ++ toString start ++ ", " ++ toString stop ++ ") for cell of length " ++
      toString length
  | invertedEdit range uri => "inverted edit range " ++ range.render ++ " for " ++ uri
  | noSpans => "cannot map an offset without spans"
  | malformedUri uri => "the host in '" ++ uri ++ "' is not an address"
  | headerNotText => "the header is not a text"
  | positionOutOfRange => "line and character must be between 0 and 2147483647"
  | versionOutOfRange => "a version must be between -2147483648 and 2147483647"
  | unsupportedMessage kind => "unsupported notification params: " ++ kind
  | notAnEvent shown => "Expected code to be unreachable, but got: " ++ shown

end CellStitch
