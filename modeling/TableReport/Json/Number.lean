import TableReport.Decimal.Text
import TableReport.Json.FloatReading

/-!
JSON numbers. A numeral with neither point nor exponent is an integer as long as
it fits 64 bits, signed or unsigned; every other numeral is a double, and so is a
negative zero. Which double that is depends on the reading of decimals.
-/

namespace TableReport.Json

inductive Number where
  /-- A whole number of at most 64 bits. -/
  | integer (n : Int)
  /-- Any other number. Infinite if its numeral is out of range. -/
  | real (x : Binary64)
deriving DecidableEq

/-- JSON floats are positional for exponents of the leading digit from -5 to 15,
and else carry an exponent with its sign always shown. -/
def floatStyle : FloatStyle where
  plainFrom := -5
  plainBelow := 16
  exponentPlus := true
  tie := .even

namespace Number

/-- The number of a numeral under a reading of decimals. -/
def ofNumeral (reading : FloatReading) (n : Numeral) : Number :=
  let size := digitsValue n.whole
  if n.isWhole && !n.negative && size < 2 ^ 64 then .integer size
  else if n.isWhole && n.negative && size ≠ 0 && size ≤ 2 ^ 63 then .integer (-size)
  else .real (reading.double n)

def isFinite : Number → Bool
  | .integer _ => true
  | .real x => x.isFinite

def toBinary64 : Number → Binary64
  | .integer n => .ofInt n
  | .real x => x

/-- The text of a number. JSON has no infinities and no NaN; they are written as
`null`. -/
def chars : Number → List Char
  | .integer n => integerChars n
  | .real x => if x.isFinite then floatStyle.chars x else ['n', 'u', 'l', 'l']

end Number

end TableReport.Json
