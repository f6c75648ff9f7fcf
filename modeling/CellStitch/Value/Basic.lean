import CellStitch.Text.Lines
import CellStitch.Value.Double
/-!
# Values

The values of data files: those of settings and those of notebooks. Settings take a value as it
stands and only ask whether it is set (`Value.isSet`), whether it is a given text, or whether it
equals the boolean `false`.
-/

namespace CellStitch

/-- A number with a point or an exponent, as it is written. -/
inductive RealLiteral where
  /-- `digits * 10 ^ exponent`, with a sign. -/
  | finite (negative : Bool) (digits : Nat) (exponent : Int)
  | infinite (negative : Bool)
  | notANumber
  deriving DecidableEq, Repr

/-- A value of a data file. -/
inductive Value where
  | null
  | bool (b : Bool)
  | int (n : Int)
  | real (r : RealLiteral)
  | text (s : String)
  /-- A date, a time, or both, as it is written. -/
  | moment (s : String)
  | list (items : List Value)
  /-- Named values in their order. -/
  | table (entries : List (String × Value))
  deriving Repr, Inhabited

/-- Whether a number rounds to zero in double precision. -/
def RealLiteral.isZero : RealLiteral → Bool
  | finite _ digits exponent => Double.nearest? digits exponent == some .zero
  | infinite _ => false
  | notANumber => false

namespace Value

/-- Whether a value counts as set: all do but `null`, `false`, zero, and what is empty. -/
def isSet : Value → Bool
  | null => false
  | bool b => b
  | int n => n != 0
  | real r => !r.isZero
  | text s => !s.isEmpty
  | moment _ => true
  | list items => !items.isEmpty
  | table entries => !entries.isEmpty

/-- Whether a value is the given text. -/
def isText (v : Value) (s : String) : Bool :=
  match v with
  | text t => t == s
  | _ => false

/-- Whether a value equals the boolean `false`, as the number zero does. -/
def isFalse : Value → Bool
  | bool b => !b
  | int n => n == 0
  | real r => r.isZero
  | _ => false

/-- The entry of a table under a key. Of several the last one counts. -/
def entry? (entries : List (String × Value)) (key : String) : Option Value :=
  entries.reverse.lookup key

/-- The texts in a list of values, if all of them are texts. -/
def texts? : List Value → Option (List String)
  | [] => some []
  | text s :: items => (texts? items).map (s :: ·)
  | _ :: _ => none

end Value

end CellStitch
