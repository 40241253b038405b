import TableReport.Json.Codec

/-!
Quantities: numbers of which the source says whether they are integers or
floats. The kind is part of the value. Three and three point nought are two
quantities, and they are not compared with each other.
-/

namespace TableReport

/-- Reports write floats positionally for exponents of the leading digit from -3
to 6, and else in scientific notation with a point in the mantissa. -/
def reportStyle : FloatStyle where
  plainFrom := -3
  plainBelow := 7
  mantissaPointZero := true
  exponentMark := 'E'
  tie := .up
  infinity := "Infinity"

inductive Quantity where
  | integer (n : Int64)
  | float (x : Binary64)
deriving DecidableEq

namespace Quantity

def kind : Quantity → String
  | .integer _ => "integer"
  | .float _ => "float"

def toBinary64 : Quantity → Binary64
  | .integer n => .ofInt n.toInt
  | .float x => x

def chars : Quantity → List Char
  | .integer n => integerChars n.toInt
  | .float x => reportStyle.chars x

def text (q : Quantity) : String := String.ofList q.chars

/-- The quantity that a number of a JSON text stands for: an integer if it fits
64 signed bits, and else a float. -/
def ofNumber : Json.Number → Quantity
  | .integer n => if -2 ^ 63 ≤ n ∧ n < 2 ^ 63 then .integer (.ofInt n) else .float (.ofInt n)
  | .real x => .float x

/-- Quantities as numbers. Anything that is not a number is refused in the same
words, but only after it has been read to its end. -/
def codec : Json.Codec Quantity where
  read limit draft :=
    if draft.soundBelow limit then
      match draft with
      | .number n => .ok (ofNumber n)
      | _ => .error .notANumber
    else
      .error .malformed
  write
    | .integer n => some (.integer n.toInt)
    | .float x => some (.real x)

end Quantity

end TableReport
